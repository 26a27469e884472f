import Mathlib.Data.List.AList
import Sne.Library.Runs

/-!
# Proxies of other servers

`ServerSideProxy.cpp`, `ManagedServerSideProxy.cpp` and `ServerSideProxyManager.cpp` with
what they use of `ServerSideBridge.cpp`. A proxy enters itself in the manager when an
authentication succeeds and leaves it when its bridge is disconnected, both times under
the identifier that it has then, and every authentication rewrites that identifier.
-/

namespace Sne.Server

open Sne.Library.Runs

set_option autoImplicit false

/-- `ServerId` and `ClientId` are enumerations over `uint32_t`. -/
abbrev ServerId := UInt32

abbrev ClientId := UInt32

namespace ServerId

def invalid : ServerId := 0

def isValid (serverId : ServerId) : Bool := serverId != invalid

end ServerId

abbrev S2sCertificate := List UInt8

/-- A pointer to a proxy is its place in the order of creation. -/
abbrev ProxyPointer := Nat

/-- What a proxy sees of its bridge. The results are those sent on the present connection. -/
structure ServerSideBridge where
  clientId : ClientId := ServerId.invalid
  isConnected : Bool := false
  isDisconnectRequested : Bool := false
  results : List Bool := []

namespace ServerSideBridge

def onAuthenticate (isAuthenticated : Bool) (bridge : ServerSideBridge) : ServerSideBridge :=
  { bridge with results := bridge.results ++ [isAuthenticated] }

def disconnectGracefully (bridge : ServerSideBridge) : ServerSideBridge :=
  { bridge with isDisconnectRequested := true }

def unauthenticated (bridge : ServerSideBridge) : ServerSideBridge :=
  { bridge with clientId := ServerId.invalid }

/-- The socket is open, and `onConnected` has taken the next client identifier. -/
def onConnected (clientId : ClientId) (_ : ServerSideBridge) : ServerSideBridge :=
  { clientId, isConnected := true }

def onDisconnected (bridge : ServerSideBridge) : ServerSideBridge :=
  { bridge with isConnected := false }

end ServerSideBridge

structure ServerSideProxyManager where
  proxies : AList fun _ : ServerId => ProxyPointer := ∅

namespace ServerSideProxyManager

/-- An entry that exists is replaced. -/
def add (proxyId : ServerId) (proxy : ProxyPointer) (manager : ServerSideProxyManager) :
    ServerSideProxyManager :=
  { manager with proxies := manager.proxies.insert proxyId proxy }

def remove (proxyId : ServerId) (manager : ServerSideProxyManager) : ServerSideProxyManager :=
  if !ServerId.isValid proxyId then
    manager
  else
    { manager with proxies := manager.proxies.erase proxyId }

def getProxy (proxyId : ServerId) (manager : ServerSideProxyManager) : Option ProxyPointer :=
  manager.proxies.lookup proxyId

/-- Some entry refers to the proxy. -/
def refersTo (proxy : ProxyPointer) (manager : ServerSideProxyManager) : Bool :=
  manager.proxies.entries.any fun entry => entry.2 == proxy

theorem get_proxy_refers {manager : ServerSideProxyManager} {proxyId : ServerId} {proxy : ProxyPointer}
    (found : manager.getProxy proxyId = some proxy) : manager.refersTo proxy = true := by
  have entry : Sigma.mk proxyId proxy ∈ manager.proxies.entries := AList.mem_lookup_iff.mp found
  exact List.any_eq_true.mpr ⟨_, entry, beq_self_eq_true proxy⟩

theorem get_proxy_add {manager : ServerSideProxyManager} {proxyId added : ServerId}
    {proxy addedProxy : ProxyPointer}
    (found : (manager.add added addedProxy).getProxy proxyId = some proxy) :
    proxyId = added ∧ proxy = addedProxy ∨ proxyId ≠ added ∧ manager.getProxy proxyId = some proxy := by
  by_cases same : proxyId = added
  · left
    rw [same, getProxy, add, AList.lookup_insert] at found
    exact ⟨same, (Option.some.inj found).symm⟩
  · right
    rw [getProxy, add, AList.lookup_insert_ne same] at found
    exact ⟨same, found⟩

theorem get_proxy_remove {manager : ServerSideProxyManager} {proxyId removed : ServerId}
    {proxy : ProxyPointer} (found : (manager.remove removed).getProxy proxyId = some proxy) :
    manager.getProxy proxyId = some proxy ∧ (ServerId.isValid removed = true → proxyId ≠ removed) := by
  unfold remove at found
  split at found
  · rename_i ignored
    refine ⟨found, ?_⟩
    intro valid
    rw [valid] at ignored
    cases ignored
  · by_cases same : proxyId = removed
    · rw [same, getProxy, AList.lookup_erase] at found
      cases found
    · rw [getProxy, AList.lookup_erase_ne same] at found
      exact ⟨found, fun _ => same⟩

end ServerSideProxyManager

structure ManagedServerSideProxy where
  serverId : ServerId := ServerId.invalid
  bridge : ServerSideBridge := {}

namespace ManagedServerSideProxy

def managed (this : ProxyPointer) (proxy : ManagedServerSideProxy) (manager : ServerSideProxyManager) :
    ServerSideProxyManager :=
  manager.add proxy.serverId this

def unmanaged (proxy : ManagedServerSideProxy) (manager : ServerSideProxyManager) :
    ServerSideProxyManager :=
  manager.remove proxy.serverId

def disconnected (proxy : ManagedServerSideProxy) (manager : ServerSideProxyManager) :
    ManagedServerSideProxy × ServerSideProxyManager :=
  ({ proxy with serverId := ServerId.invalid }, proxy.unmanaged manager)

def authenticate (verifyAuthentication : S2sCertificate → Bool) (certificate : S2sCertificate)
    (this : ProxyPointer) (proxy : ManagedServerSideProxy) (manager : ServerSideProxyManager) :
    ManagedServerSideProxy × ServerSideProxyManager :=
  let proxy := { proxy with serverId := proxy.bridge.clientId }
  let isAuthenticated := verifyAuthentication certificate
  let proxy := { proxy with bridge := proxy.bridge.onAuthenticate isAuthenticated }
  if !isAuthenticated then
    ({ serverId := ServerId.invalid, bridge := proxy.bridge.disconnectGracefully }, manager)
  else
    (proxy, proxy.managed this manager)

end ManagedServerSideProxy

/-- The proxies of a process with their manager. A proxy that was destroyed leaves its place empty. -/
structure ServerSideProxies where
  globalClientId : ClientId := ServerId.invalid
  manager : ServerSideProxyManager := {}
  proxies : List (Option ManagedServerSideProxy) := []

namespace ServerSideProxies

inductive Label where
  | created
  | connected (proxy : ProxyPointer)
  | authenticate (proxy : ProxyPointer) (verifyAuthentication : S2sCertificate → Bool)
      (certificate : S2sCertificate)
  | unauthenticated (proxy : ProxyPointer)
  | disconnected (proxy : ProxyPointer)
  | destroyed (proxy : ProxyPointer)

def proxyAt (pointer : ProxyPointer) (state : ServerSideProxies) : Option ManagedServerSideProxy :=
  state.proxies.getD pointer none

def put (pointer : ProxyPointer) (proxy : Option ManagedServerSideProxy)
    (manager : ServerSideProxyManager)
    (state : ServerSideProxies) : ServerSideProxies :=
  { state with manager, proxies := state.proxies.set pointer proxy }

def getNextClientId (state : ServerSideProxies) : ClientId × ServerSideProxies :=
  (state.globalClientId + 1, { state with globalClientId := state.globalClientId + 1 })

/-- A session is connected and disconnected in turn, and it is destroyed when it is not connected. A
message that was read before the disconnect may still arrive after it. -/
def advance (state : ServerSideProxies) : Label → Option ServerSideProxies
  | .created => some { state with proxies := state.proxies ++ [some {}] }
  | .connected pointer =>
      match state.proxyAt pointer with
      | some proxy =>
          if proxy.bridge.isConnected then
            none
          else
            let (clientId, state) := state.getNextClientId
            some (state.put pointer (some { proxy with bridge := proxy.bridge.onConnected clientId })
              state.manager)
      | none => none
  | .authenticate pointer verifyAuthentication certificate =>
      match state.proxyAt pointer with
      | some proxy =>
          let authenticated := proxy.authenticate verifyAuthentication certificate pointer state.manager
          some (state.put pointer (some authenticated.1) authenticated.2)
      | none => none
  | .unauthenticated pointer =>
      match state.proxyAt pointer with
      | some proxy =>
          some (state.put pointer (some { proxy with bridge := proxy.bridge.unauthenticated }) state.manager)
      | none => none
  | .disconnected pointer =>
      match state.proxyAt pointer with
      | some proxy =>
          if proxy.bridge.isConnected then
            let disconnected :=
              { proxy with bridge := proxy.bridge.onDisconnected }.disconnected state.manager
            some (state.put pointer (some disconnected.1) disconnected.2)
          else
            none
      | none => none
  | .destroyed pointer =>
      match state.proxyAt pointer with
      | some proxy =>
          if proxy.bridge.isConnected then none else some (state.put pointer none state.manager)
      | none => none

def Step (state : ServerSideProxies) (label : Label) (next : ServerSideProxies) : Prop :=
  state.advance label = some next

/-- A valid identifier is mapped to a connected proxy whose latest authentication succeeded, and no entry
at all refers to a proxy that is disconnected or destroyed. -/
structure HoldsLiveOnly (state : ServerSideProxies) : Prop where
  authenticated : ∀ proxyId pointer, ServerId.isValid proxyId = true →
    state.manager.getProxy proxyId = some pointer →
    ∃ proxy, state.proxyAt pointer = some proxy ∧ proxy.bridge.isConnected = true ∧
      proxy.bridge.results.getLast? = some true
  connected : ∀ proxyId pointer, state.manager.getProxy proxyId = some pointer →
    ∃ proxy, state.proxyAt pointer = some proxy ∧ proxy.bridge.isConnected = true

/-- An authentication that succeeds finds its bridge connected and with a valid client identifier, one
that fails finds no entry of the proxy. -/
def AuthenticatesFresh (state : ServerSideProxies) : Label → Prop
  | .authenticate pointer verifyAuthentication certificate =>
      match state.proxyAt pointer with
      | some proxy =>
          if verifyAuthentication certificate then
            proxy.bridge.isConnected = true ∧ ServerId.isValid proxy.bridge.clientId = true
          else
            state.manager.refersTo pointer = false
      | none => True
  | _ => True

instance (state : ServerSideProxies) (label : Label) : Decidable (state.AuthenticatesFresh label) :=
  match label with
  | .authenticate pointer verifyAuthentication certificate =>
      match found : state.proxyAt pointer with
      | some proxy => decidable_of_iff
          (if verifyAuthentication certificate then
            proxy.bridge.isConnected = true ∧ ServerId.isValid proxy.bridge.clientId = true
          else
            state.manager.refersTo pointer = false) (by simp only [AuthenticatesFresh, found])
      | none => isTrue (by simp only [AuthenticatesFresh, found])
  | .created | .connected _ | .unauthenticated _ | .disconnected _ | .destroyed _ => isTrue True.intro

structure Entered (proxyId : ServerId) (proxy : ManagedServerSideProxy) : Prop where
  identifier : proxy.serverId = proxyId
  valid : ServerId.isValid proxyId = true
  client : proxy.bridge.clientId = proxyId ∨ proxy.bridge.clientId = ServerId.invalid
  connected : proxy.bridge.isConnected = true
  authenticated : proxy.bridge.results.getLast? = some true

def EntriesSound (state : ServerSideProxies) : Prop :=
  ∀ proxyId pointer, state.manager.getProxy proxyId = some pointer →
    ∃ proxy, state.proxyAt pointer = some proxy ∧ Entered proxyId proxy

theorem EntriesSound.holds {state : ServerSideProxies} (sound : state.EntriesSound) :
    state.HoldsLiveOnly := by
  constructor
  · intro proxyId pointer _ found
    rcases sound proxyId pointer found with ⟨proxy, present, entered⟩
    exact ⟨proxy, present, entered.connected, entered.authenticated⟩
  · intro proxyId pointer found
    rcases sound proxyId pointer found with ⟨proxy, present, entered⟩
    exact ⟨proxy, present, entered.connected⟩

theorem EntriesSound.entered {state : ServerSideProxies} (sound : state.EntriesSound)
    {proxyId : ServerId}
    {pointer : ProxyPointer} {proxy : ManagedServerSideProxy}
    (present : state.proxyAt pointer = some proxy)
    (found : state.manager.getProxy proxyId = some pointer) : Entered proxyId proxy := by
  rcases sound proxyId pointer found with ⟨other, same, entered⟩
  rw [present] at same
  cases same
  exact entered

/-- No entry refers to a proxy that is not connected. -/
theorem EntriesSound.unentered {state : ServerSideProxies} (sound : state.EntriesSound)
    {pointer : ProxyPointer} {proxy : ManagedServerSideProxy}
    (present : state.proxyAt pointer = some proxy)
    (closed : proxy.bridge.isConnected = false) (proxyId : ServerId) :
    state.manager.getProxy proxyId ≠ some pointer := by
  intro found
  have connected := (sound.entered present found).connected
  rw [closed] at connected
  cases connected

theorem proxy_at_inside {state : ServerSideProxies} {pointer : ProxyPointer}
    {proxy : ManagedServerSideProxy}
    (present : state.proxyAt pointer = some proxy) : pointer < state.proxies.length := by
  apply Nat.lt_of_not_le
  intro beyond
  rw [proxyAt, List.getD_eq_getElem?_getD, List.getElem?_eq_none beyond] at present
  cases present

theorem proxy_at_put {state : ServerSideProxies} {pointer other : ProxyPointer}
    {proxy : Option ManagedServerSideProxy} {manager : ServerSideProxyManager}
    (distinct : other ≠ pointer) :
    (state.put pointer proxy manager).proxyAt other = state.proxyAt other := by
  simp only [proxyAt, put, List.getD_eq_getElem?_getD]
  rw [List.getElem?_set_ne distinct.symm]

theorem proxy_at_put_self {state : ServerSideProxies} {pointer : ProxyPointer}
    {before : ManagedServerSideProxy} (present : state.proxyAt pointer = some before)
    (proxy : Option ManagedServerSideProxy) (manager : ServerSideProxyManager) :
    (state.put pointer proxy manager).proxyAt pointer = proxy := by
  simp only [proxyAt, put, List.getD_eq_getElem?_getD]
  rw [List.getElem?_set_self (proxy_at_inside present), Option.getD_some]

/-- A step of one proxy keeps the entries of the others, and answers for its own. -/
theorem EntriesSound.put {state : ServerSideProxies} (sound : state.EntriesSound)
    {pointer : ProxyPointer}
    {before : ManagedServerSideProxy} (present : state.proxyAt pointer = some before)
    {proxy : Option ManagedServerSideProxy} {manager : ServerSideProxyManager}
    (entries : ∀ proxyId other, manager.getProxy proxyId = some other →
      other ≠ pointer ∧ state.manager.getProxy proxyId = some other ∨
        other = pointer ∧ ∃ after, proxy = some after ∧ Entered proxyId after) :
    (state.put pointer proxy manager).EntriesSound := by
  intro proxyId other found
  cases entries proxyId other found with
  | inl kept =>
      rw [proxy_at_put kept.1]
      exact sound proxyId other kept.2
  | inr own =>
      rcases own with ⟨rfl, after, rfl, entered⟩
      exact ⟨after, proxy_at_put_self present _ _, entered⟩

theorem EntriesSound.put_unentered {state : ServerSideProxies} (sound : state.EntriesSound)
    {pointer : ProxyPointer} {before : ManagedServerSideProxy}
    (present : state.proxyAt pointer = some before)
    (unentered : ∀ proxyId, state.manager.getProxy proxyId ≠ some pointer)
    (proxy : Option ManagedServerSideProxy) : (state.put pointer proxy state.manager).EntriesSound := by
  apply sound.put present
  intro proxyId other found
  left
  refine ⟨?_, found⟩
  intro same
  rw [same] at found
  exact unentered proxyId found

theorem authenticate_succeeds {state : ServerSideProxies} (sound : state.EntriesSound)
    {pointer : ProxyPointer} {proxy : ManagedServerSideProxy}
    (present : state.proxyAt pointer = some proxy)
    {verifyAuthentication : S2sCertificate → Bool} {certificate : S2sCertificate}
    (verified : verifyAuthentication certificate = true) (connected : proxy.bridge.isConnected = true)
    (valid : ServerId.isValid proxy.bridge.clientId = true) :
    (state.put pointer
      (some (proxy.authenticate verifyAuthentication certificate pointer state.manager).1)
      (proxy.authenticate verifyAuthentication certificate pointer state.manager).2).EntriesSound := by
  have outcome : proxy.authenticate verifyAuthentication certificate pointer state.manager =
      ({ serverId := proxy.bridge.clientId, bridge := proxy.bridge.onAuthenticate true },
        state.manager.add proxy.bridge.clientId pointer) := by
    simp only [ManagedServerSideProxy.authenticate, verified]
    rfl
  rw [outcome]
  apply sound.put present
  intro proxyId other found
  cases ServerSideProxyManager.get_proxy_add found with
  | inl added =>
      rcases added with ⟨rfl, rfl⟩
      right
      exact ⟨rfl, _, rfl, ⟨rfl, valid, Or.inl rfl, connected, List.getLast?_concat⟩⟩
  | inr earlier =>
      left
      refine ⟨?_, earlier.2⟩
      intro same
      rw [same] at earlier
      -- an entry of the proxy itself is under the same client identifier
      cases (sound.entered present earlier.2).client with
      | inl client => exact earlier.1 client.symm
      | inr gone =>
          rw [gone] at valid
          cases valid

theorem authenticate_fails {state : ServerSideProxies} (sound : state.EntriesSound)
    {pointer : ProxyPointer} {proxy : ManagedServerSideProxy}
    (present : state.proxyAt pointer = some proxy)
    {verifyAuthentication : S2sCertificate → Bool} {certificate : S2sCertificate}
    (refused : verifyAuthentication certificate = false)
    (fresh : state.manager.refersTo pointer = false) :
    (state.put pointer
      (some (proxy.authenticate verifyAuthentication certificate pointer state.manager).1)
      (proxy.authenticate verifyAuthentication certificate pointer state.manager).2).EntriesSound := by
  have untouched : (proxy.authenticate verifyAuthentication certificate pointer state.manager).2 =
      state.manager := by
    simp only [ManagedServerSideProxy.authenticate, refused]
    rfl
  rw [untouched]
  apply sound.put_unentered present
  intro proxyId found
  have refers := ServerSideProxyManager.get_proxy_refers found
  rw [fresh] at refers
  cases refers

theorem disconnected_sound {state : ServerSideProxies} (sound : state.EntriesSound)
    {pointer : ProxyPointer} {proxy : ManagedServerSideProxy}
    (present : state.proxyAt pointer = some proxy)
    (after : ManagedServerSideProxy) :
    (state.put pointer (some after) (state.manager.remove proxy.serverId)).EntriesSound := by
  apply sound.put present
  intro proxyId other found
  rcases ServerSideProxyManager.get_proxy_remove found with ⟨earlier, different⟩
  left
  refine ⟨?_, earlier⟩
  intro same
  rw [same] at earlier
  have entered := sound.entered present earlier
  have identifier := entered.identifier
  rw [identifier] at different
  exact different entered.valid rfl

theorem created_sound {state : ServerSideProxies} (sound : state.EntriesSound)
    (proxy : Option ManagedServerSideProxy) :
    { state with proxies := state.proxies ++ [proxy] }.EntriesSound := by
  intro proxyId pointer found
  rcases sound proxyId pointer found with ⟨before, present, entered⟩
  refine ⟨before, ?_, entered⟩
  rw [← present]
  simp only [proxyAt, List.getD_eq_getElem?_getD]
  rw [List.getElem?_append_left (proxy_at_inside present)]

theorem Step.sound {state next : ServerSideProxies} {label : Label} (step : Step state label next)
    (fresh : state.AuthenticatesFresh label) (sound : state.EntriesSound) : next.EntriesSound := by
  unfold Step at step
  cases label with
  | created =>
      cases step
      exact created_sound sound _
  | connected pointer =>
      simp only [advance] at step
      split at step
      · rename_i proxy present
        split at step
        · cases step
        · rename_i closed
          cases step
          exact sound.put_unentered present (sound.unentered present (Bool.eq_false_iff.mpr closed)) _
      · cases step
  | authenticate pointer verifyAuthentication certificate =>
      simp only [advance] at step
      simp only [AuthenticatesFresh] at fresh
      split at step
      · rename_i proxy present
        cases step
        rw [present] at fresh
        dsimp only at fresh
        split at fresh
        · rename_i verified
          exact authenticate_succeeds sound present verified fresh.1 fresh.2
        · rename_i refused
          exact authenticate_fails sound present (Bool.eq_false_iff.mpr refused) fresh
      · cases step
  | unauthenticated pointer =>
      simp only [advance] at step
      split at step
      · rename_i proxy present
        cases step
        apply sound.put present
        intro proxyId other found
        by_cases same : other = pointer
        · right
          rw [same] at found
          have entered := sound.entered present found
          exact ⟨same, _, rfl, { entered with client := Or.inr rfl }⟩
        · left
          exact ⟨same, found⟩
      · cases step
  | disconnected pointer =>
      simp only [advance] at step
      split at step
      · rename_i proxy present
        split at step
        · cases step
          exact disconnected_sound sound present _
        · cases step
      · cases step
  | destroyed pointer =>
      simp only [advance] at step
      split at step
      · rename_i proxy present
        split at step
        · cases step
        · rename_i closed
          cases step
          exact sound.put_unentered present (sound.unentered present (Bool.eq_false_iff.mpr closed)) _
      · cases step

/-- The manager holds live proxies only, while no proxy authenticates again in vain. -/
theorem manager_holds_live_only {labels : List Label} {last : ServerSideProxies}
    (run : Run (Where Step AuthenticatesFresh) {} labels last) : last.HoldsLiveOnly := by
  have sound : last.EntriesSound := by
    apply run.invariant (fun _ state => state.EntriesSound)
    · intro proxyId pointer found
      cases found
    · intro history state label next sound step
      exact Step.sound step.1 step.2 sound
  exact sound.holds

section Concrete

def expects (certificate : S2sCertificate) : Bool := certificate == [107]

def servers : List Label :=
  [.created, .created, .connected 0, .connected 1, .authenticate 0 expects [107],
    .authenticate 1 expects [107], .disconnected 0, .connected 0, .authenticate 0 expects [1]]

theorem manager_holds_live_only_servers :
    ∃ last, Run (Where Step AuthenticatesFresh) {} servers last ∧
      last.manager.getProxy 1 = none ∧ last.manager.getProxy 2 = some 1 ∧ last.HoldsLiveOnly := by
  have executes : (execute (guarded advance AuthenticatesFresh) {} servers).map (fun last =>
      (last.manager.getProxy 1, last.manager.getProxy 2)) = some (none, some 1) := by
    decide +kernel
  rcases Run.of_guarded Step AuthenticatesFresh (fun _ _ _ taken => taken) executes with ⟨last, run, entries⟩
  simp only [Prod.mk.injEq] at entries
  exact ⟨last, run, entries.1, entries.2, manager_holds_live_only run⟩

def authenticatesAgain : List Label :=
  [.created, .connected 0, .authenticate 0 expects [107], .authenticate 0 expects [1], .disconnected 0,
    .destroyed 0]

theorem entry_outlives_proxy :
    ¬∀ labels last, Run Step {} labels last → last.HoldsLiveOnly := by
  intro always
  have executes : (execute advance {} authenticatesAgain).map (fun last =>
      (last.manager.getProxy 1, (last.proxyAt 0).isSome)) = some (some 0, false) := by
    decide +kernel
  rcases Run.of_observed Step (fun _ _ _ taken => taken) executes with ⟨last, run, entry⟩
  simp only [Prod.mk.injEq] at entry
  rcases (always _ _ run).connected 1 0 entry.1 with ⟨proxy, present, _⟩
  rw [present] at entry
  cases entry.2

end Concrete

end ServerSideProxies

end Sne.Server
