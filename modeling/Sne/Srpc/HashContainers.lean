import Sne.Library.HashTable
import Sne.Library.Runs
import Sne.Srpc.StringRoundTrip

/-!
# Hashed containers of strings

`RHashSet` and `RHashMap` of `RpcContainers.h` with strings as keys. The specialisations of
`std::hash` in `RpcTypes.h` hash the pointer to the characters of a string, not the
characters. The function is not `noexcept`, and the containers store the code of a key in
its node.
-/

namespace Sne.Srpc.HashContainers

open Sne.Core Sne.Library Sne.Library.Exec Sne.Library.Codec Sne.Library.Endian Sne.Library.Runs
open Sne.Library.HashTable (Node Distinct Agrees contains load keys entry)

set_option autoImplicit false

/-- A string object, with the address of its characters while it is hashed. -/
structure Key (Text : Type) where
  text : Text
  address : UInt64
deriving DecidableEq, Repr

abbrev Table (Text ν : Type) := List (Node Text ν UInt64)

section Containers

variable {Text ν ω σ : Type}

/-- `std::hash` of the pointer that `c_str` returns: the address. -/
def hashOf (key : Key Text) : UInt64 := key.address

def node (element : Key Text × ν) : Node Text ν UInt64 :=
  { key := element.1.text, value := element.2, code := hashOf element.1 }

/-- What distinguishes the sets from the maps when they are written and read. A reader is
given the element of the round before. -/
structure Streaming (Text ν ω σ : Type) where
  writeSize : Nat → StreamM ω Unit
  writeElement : Text × ν → StreamM ω Unit
  readSize : StreamM σ Nat
  readElement : Text × ν → StreamM σ (Text × ν)
  initial : Text × ν

def serialize (streaming : Streaming Text ν ω σ) (container : Table Text ν) : StreamM ω Unit := do
  require (decide (container.length ≤ maxContainerSize)) containerSizeIsTooBig
  streaming.writeSize container.length
  writeEach streaming.writeElement ((container.map entry).take maxContainerSize)

structure Receiving (Text ν σ : Type) where
  container : Table Text ν
  istream : σ

def onStream {α : Type} (program : StreamM σ α) : EStateM Exception (Receiving Text ν σ) α :=
  focus (fun receiving => receiving.istream)
    (fun receiving istream => { receiving with istream }) program

variable [DecidableEq Text]

/-- The loop of `serialize(IStream&)`. The string that is read and inserted in a round has
its characters at the place of the round. -/
def decodeElements (streaming : Streaming Text ν ω σ) (place : Nat → UInt64) :
    Nat → Nat → Text × ν → EStateM Exception (Receiving Text ν σ) Unit
  | 0, _, _ => pure ()
  | remaining + 1, round, element => do
      let element ← onStream (streaming.readElement element)
      let key := Key.mk element.1 (place round)
      modify fun receiving =>
        { receiving with container := HashTable.insert key.text element.2 (hashOf key) receiving.container }
      decodeElements streaming place remaining (round + 1) element

def deserialize (streaming : Streaming Text ν ω σ) (place : Nat → UInt64) :
    EStateM Exception (Receiving Text ν σ) Unit := do
  modify fun receiving => { receiving with container := [] }
  let size ← onStream streaming.readSize
  require (decide (size ≤ maxContainerSize)) containerSizeIsTooBig
  decodeElements streaming place size 0 streaming.initial

omit [DecidableEq Text]

def decodedElements (streaming : Streaming Text ν ω σ) (place : Nat → UInt64) :
    Nat → Nat → Text × ν → σ → List (Key Text × ν)
  | 0, _, _, _ => []
  | remaining + 1, round, element, istream =>
      match streaming.readElement element istream with
      | .ok element istream =>
          (⟨element.1, place round⟩, element.2) ::
            decodedElements streaming place remaining (round + 1) element istream
      | .error _ _ => []

def decoded (streaming : Streaming Text ν ω σ) (place : Nat → UInt64) (istream : σ) :
    List (Key Text × ν) :=
  match streaming.readSize istream with
  | .ok size istream =>
      if size ≤ maxContainerSize then
        decodedElements streaming place size 0 streaming.initial istream
      else
        []
  | .error _ _ => []

def left {ε α τ : Type} : EStateM.Result ε τ α → τ
  | .ok _ state => state
  | .error _ state => state

end Containers

section Runs

variable {Text ν ω σ : Type} [DecidableEq Text]

inductive Operation (Text ν : Type) where
  | insert (key : Key Text) (value : ν)
  | deserialize (elements : List (Key Text × ν))
  | find (key : Key Text) (succeeds : Bool)

/-- The table may rearrange its nodes whenever it takes one. -/
inductive Step (streaming : Streaming Text ν ω σ) : Table Text ν → Operation Text ν → Table Text ν → Prop
  | insert (container later : Table Text ν) (key : Key Text) (value : ν)
      (arranged : later.Perm (HashTable.insert key.text value (hashOf key) container)) :
      Step streaming container (.insert key value) later
  | deserialize (container later : Table Text ν) (place : Nat → UInt64) (istream : σ)
      (arranged : later.Perm (left (deserialize streaming place { container, istream })).container) :
      Step streaming container (.deserialize (decoded streaming place istream)) later
  | find (container : Table Text ν) (key : Key Text) :
      Step streaming container (.find key (contains key.text (hashOf key) container)) container

omit [DecidableEq Text]

def Operation.hashed : Operation Text ν → List (Key Text)
  | .insert key _ => [key]
  | .deserialize elements => elements.map Prod.fst
  | .find key _ => [key]

def hashedKeys (operations : List (Operation Text ν)) : List (Key Text) :=
  operations.flatMap Operation.hashed

def insertedAfter (texts : List Text) : Operation Text ν → List Text
  | .insert key _ => key.text :: texts
  | .deserialize elements => elements.map fun element => element.1.text
  | .find _ _ => texts

def inserted (operations : List (Operation Text ν)) : List Text :=
  operations.foldl insertedAfter []

/-- Every lookup of the run succeeded exactly when an equal string was inserted. -/
def FindsRight (operations : List (Operation Text ν)) : Prop :=
  ∀ earlier key succeeds later, operations = earlier ++ .find key succeeds :: later →
    (succeeds = true ↔ key.text ∈ inserted earlier)

/-- Equal strings that a run hashes have their characters at one address. -/
def OnePlace (operations : List (Operation Text ν)) : Prop :=
  ∀ first ∈ hashedKeys operations, ∀ second ∈ hashedKeys operations,
    first.text = second.text → first.address = second.address

end Runs

section Decoding

variable {Text ν ω σ : Type} [DecidableEq Text] {streaming : Streaming Text ν ω σ}
  {place : Nat → UInt64}

omit [DecidableEq Text] in
theorem on_stream_runs {α : Type} {program : StreamM σ α} {container : Table Text ν} {istream after : σ}
    {value : α} (runs : program istream = .ok value after) :
    Runs (onStream program) (⟨container, istream⟩ : Receiving Text ν σ) value ⟨container, after⟩ :=
  Runs.focus runs

omit [DecidableEq Text] in
theorem on_stream_throws {α : Type} {program : StreamM σ α} {container : Table Text ν}
    {istream after : σ}
    {thrown : Exception} (throws : program istream = .error thrown after) :
    Throws (onStream program) (⟨container, istream⟩ : Receiving Text ν σ) thrown ⟨container, after⟩ :=
  Throws.focus throws

omit [DecidableEq Text] in
theorem left_of_throws {α β : Type} {program : EStateM Exception σ α} {next : α → EStateM Exception σ β}
    {start after : σ} {thrown : Exception} (throws : Throws program start thrown after) :
    left ((program >>= next) start) = after := by
  have whole : Throws (program >>= next) start thrown after := throws.bind
  rw [whole]
  rfl

theorem decode_elements_loads {remaining round : Nat} {element : Text × ν} {container : Table Text ν}
    {istream : σ} :
    (left (decodeElements streaming place remaining round element ⟨container, istream⟩)).container =
      load container ((decodedElements streaming place remaining round element istream).map node) := by
  induction remaining generalizing round element container istream with
  | zero => rfl
  | succ remaining induction =>
      rw [decodeElements, decodedElements]
      cases read : streaming.readElement element istream with
      | ok next after =>
          rw [(on_stream_runs read).bind_eq, (runs_modify _ _).bind_eq, induction]
          rfl
      | error thrown after =>
          rw [left_of_throws (on_stream_throws read)]
          rfl

/-- Whether it returns or throws, the container has taken the elements that were decoded. -/
theorem deserialize_loads (container : Table Text ν) (istream : σ) :
    (left (deserialize streaming place ⟨container, istream⟩)).container =
      load [] ((decoded streaming place istream).map node) := by
  rw [deserialize, (runs_modify _ _).bind_eq, decoded]
  cases read : streaming.readSize istream with
  | ok size after =>
      rw [(on_stream_runs read).bind_eq]
      dsimp only
      by_cases small : size ≤ maxContainerSize
      · rw [(runs_require (decide_eq_true small) _ _).bind_eq, decode_elements_loads, if_pos small]
      · rw [left_of_throws (throws_require (decide_eq_false small) _ _), if_neg small]
        rfl
  | error thrown after =>
      rw [left_of_throws (on_stream_throws read)]
      rfl

end Decoding

section Invariant

variable {Text ν ω σ : Type} [DecidableEq Text] {streaming : Streaming Text ν ω σ}

structure Kept (operations : List (Operation Text ν)) (container : Table Text ν) : Prop where
  coded : ∀ node ∈ container, ∃ key ∈ hashedKeys operations, key.text = node.key ∧ hashOf key = node.code
  texts : ∀ text, text ∈ keys container ↔ text ∈ inserted operations

omit [DecidableEq Text] in
theorem mem_hashed_append {history : List (Operation Text ν)} {operation : Operation Text ν}
    {key : Key Text} : key ∈ hashedKeys (history ++ [operation]) ↔
      key ∈ hashedKeys history ∨ key ∈ operation.hashed := by
  unfold hashedKeys
  rw [List.flatMap_append, List.mem_append, List.flatMap_singleton]

omit [DecidableEq Text] in
theorem inserted_append (history : List (Operation Text ν)) (operation : Operation Text ν) :
    inserted (history ++ [operation]) = insertedAfter (inserted history) operation := by
  unfold inserted
  rw [List.foldl_append]
  rfl

omit [DecidableEq Text] in
theorem texts_of_nodes (elements : List (Key Text × ν)) :
    keys (elements.map node) = elements.map fun element => element.1.text := by
  unfold keys
  rw [List.map_map]
  rfl

omit [DecidableEq Text] in
theorem kept_start : Kept ([] : List (Operation Text ν)) [] := by
  constructor
  · intro node member
    exact absurd member List.not_mem_nil
  · intro text
    exact Iff.rfl

theorem kept_step (history : List (Operation Text ν)) (container : Table Text ν)
    (operation : Operation Text ν) (later : Table Text ν) (kept : Kept history container)
    (taken : Step streaming container operation later) : Kept (history ++ [operation]) later := by
  cases taken with
  | insert _ key value arranged =>
      constructor
      · intro node member
        rcases HashTable.mem_insert (arranged.mem_iff.mp member) with fresh | old
        · rw [fresh]
          exact ⟨key, mem_hashed_append.mpr (.inr List.mem_cons_self), rfl, rfl⟩
        · rcases kept.coded node old with ⟨known, hashed, same⟩
          exact ⟨known, mem_hashed_append.mpr (.inl hashed), same⟩
      · intro text
        rw [HashTable.mem_keys_perm arranged, HashTable.mem_keys_insert, kept.texts, inserted_append]
        exact List.mem_cons.symm
  | deserialize _ place istream arranged =>
      rw [deserialize_loads] at arranged
      constructor
      · intro other member
        rcases HashTable.mem_load (arranged.mem_iff.mp member) with old | fresh
        · exact absurd old List.not_mem_nil
        · rcases List.mem_map.mp fresh with ⟨element, contained, same⟩
          rw [← same]
          exact ⟨element.1, mem_hashed_append.mpr (.inr (List.mem_map_of_mem contained)), rfl, rfl⟩
      · intro text
        rw [HashTable.mem_keys_perm arranged, HashTable.mem_keys_load, texts_of_nodes, inserted_append]
        exact or_iff_right List.not_mem_nil
  | find key =>
      constructor
      · intro node member
        rcases kept.coded node member with ⟨known, hashed, same⟩
        exact ⟨known, mem_hashed_append.mpr (.inl hashed), same⟩
      · intro text
        rw [kept.texts, inserted_append]
        rfl

theorem kept_run {operations : List (Operation Text ν)} {container : Table Text ν}
    (run : Run (Step streaming) [] operations container) : Kept operations container := by
  exact run.invariant Kept kept_start kept_step

def Meets (container : Table Text ν) : Operation Text ν → Prop
  | .insert key _ => Agrees key.text key.address container
  | .deserialize elements => ∀ first ∈ elements, ∀ second ∈ elements,
      first.1.text = second.1.text → first.1.address = second.1.address
  | .find key _ => Agrees key.text key.address container

def Behaves (container : Table Text ν) (operation : Operation Text ν) (later : Table Text ν) : Prop :=
  Distinct later ∧ ∀ key succeeds, operation = .find key succeeds →
    (succeeds = true ↔ key.text ∈ keys container)

/-- A string that is inserted or looked up at another address than its equal is taken for a
new one. -/
theorem behaves_iff {container later : Table Text ν} {operation : Operation Text ν}
    (distinct : Distinct container) (taken : Step streaming container operation later) :
    Behaves container operation later ↔ Meets container operation := by
  cases taken with
  | insert _ key value arranged =>
      have noLookup : ∀ wanted succeeds, Operation.insert key value = .find wanted succeeds →
          (succeeds = true ↔ wanted.text ∈ keys container) := by
        intro _ _ same
        cases same
      rw [Behaves, and_iff_left noLookup, HashTable.distinct_perm arranged, HashTable.distinct_insert_iff]
      exact and_iff_right distinct
  | deserialize _ place istream arranged =>
      have noLookup : ∀ wanted succeeds,
          Operation.deserialize (decoded streaming place istream) = .find wanted succeeds →
          (succeeds = true ↔ wanted.text ∈ keys container) := by
        intro _ _ same
        cases same
      rw [deserialize_loads] at arranged
      rw [Behaves, and_iff_left noLookup, HashTable.distinct_perm arranged]
      constructor
      · intro distinctNodes first firstMember second secondMember same
        exact HashTable.codes_of_distinct_load distinctNodes (List.mem_map_of_mem firstMember)
          (List.mem_map_of_mem secondMember) same
      · intro meets
        apply HashTable.distinct_load HashTable.distinct_nil
        intro first firstMember second secondMember same
        obtain ⟨left, leftMember, leftSame⟩ := List.mem_map.mp firstMember
        obtain ⟨right, rightMember, rightSame⟩ := List.mem_map.mp secondMember
        rw [← leftSame, ← rightSame] at same ⊢
        exact meets left leftMember right rightMember same
  | find key =>
      constructor
      · intro behaves
        exact (HashTable.contains_right_iff distinct).mp (behaves.2 key _ rfl)
      · intro meets
        refine ⟨distinct, ?_⟩
        intro _ _ same
        cases same
        exact meets.contains_iff

omit [DecidableEq Text] in
theorem OnePlace.earlier {history : List (Operation Text ν)} {operation : Operation Text ν}
    (onePlace : OnePlace (history ++ [operation])) : OnePlace history := by
  intro first firstMember second secondMember same
  exact onePlace first (mem_hashed_append.mpr (.inl firstMember)) second
    (mem_hashed_append.mpr (.inl secondMember)) same

omit [DecidableEq Text] in
theorem OnePlace.agrees {history : List (Operation Text ν)} {operation : Operation Text ν}
    (onePlace : OnePlace (history ++ [operation])) {container : Table Text ν}
    (kept : Kept history container) {key : Key Text} (hashed : key ∈ operation.hashed) :
    Agrees key.text (hashOf key) container := by
  intro node member same
  rcases kept.coded node member with ⟨known, knownHashed, sameText, code⟩
  rw [← code]
  exact onePlace known (mem_hashed_append.mpr (.inl knownHashed)) key
    (mem_hashed_append.mpr (.inr hashed)) (sameText.trans same)

structure Sound (operations : List (Operation Text ν)) (container : Table Text ν) : Prop where
  distinct : Distinct container
  finds : FindsRight operations

omit [DecidableEq Text] in
theorem FindsRight.append {history : List (Operation Text ν)} {operation : Operation Text ν}
    (right : FindsRight history)
    (last : ∀ key succeeds, operation = .find key succeeds →
      (succeeds = true ↔ key.text ∈ inserted history)) :
    FindsRight (history ++ [operation]) := by
  intro earlier key succeeds later whole
  rcases List.eq_nil_or_concat later with none | ⟨between, final, some⟩
  · rw [none] at whole
    rcases List.append_inj' whole rfl with ⟨same, single⟩
    rw [← same]
    exact last key succeeds (List.singleton_inj.mp single)
  · rw [some, List.concat_eq_append, ← List.cons_append, ← List.append_assoc] at whole
    exact right earlier key succeeds between (List.append_inj' whole rfl).1

omit [DecidableEq Text] in
theorem sound_start : Sound ([] : List (Operation Text ν)) [] := by
  constructor
  · exact HashTable.distinct_nil
  · intro earlier key succeeds later whole
    exact absurd whole.symm (List.append_ne_nil_of_right_ne_nil _ (List.cons_ne_nil _ _))

omit [DecidableEq Text] in
theorem OnePlace.meets {history : List (Operation Text ν)} {operation : Operation Text ν}
    (onePlace : OnePlace (history ++ [operation])) {container : Table Text ν}
    (kept : Kept history container) : Meets container operation := by
  cases operation with
  | insert key value => exact onePlace.agrees kept List.mem_cons_self
  | find key succeeds => exact onePlace.agrees kept List.mem_cons_self
  | deserialize elements =>
      intro first firstMember second secondMember same
      exact onePlace first.1 (mem_hashed_append.mpr (.inr (List.mem_map_of_mem firstMember))) second.1
        (mem_hashed_append.mpr (.inr (List.mem_map_of_mem secondMember))) same

theorem sound_step (history : List (Operation Text ν)) (container : Table Text ν)
    (operation : Operation Text ν) (later : Table Text ν) (onePlace : OnePlace (history ++ [operation]))
    (kept : Kept history container) (sound : Sound history container)
    (taken : Step streaming container operation later) : Sound (history ++ [operation]) later := by
  have behaves : Behaves container operation later :=
    (behaves_iff sound.distinct taken).mpr (onePlace.meets kept)
  refine ⟨behaves.1, sound.finds.append ?_⟩
  intro key succeeds same
  rw [← kept.texts]
  exact behaves.2 key succeeds same

theorem sound_run {operations : List (Operation Text ν)} {container : Table Text ν}
    (run : Run (Step streaming) [] operations container) (onePlace : OnePlace operations) :
    Sound operations container := by
  have both : Kept operations container ∧ (OnePlace operations → Sound operations container) := by
    apply run.invariant fun history container =>
      Kept history container ∧ (OnePlace history → Sound history container)
    · exact ⟨kept_start, fun _ => sound_start⟩
    · intro history container operation later invariant taken
      refine ⟨kept_step history container operation later invariant.1 taken, ?_⟩
      intro onePlace
      exact sound_step history container operation later onePlace invariant.1
        (invariant.2 onePlace.earlier) taken
  exact both.2 onePlace

theorem behaving_runs_iff (operations : List (Operation Text ν)) (last : Table Text ν) :
    Run (fun container operation later => Step streaming container operation later ∧
      Behaves container operation later) [] operations last ↔
      Run (Where (Step streaming) Meets) [] operations last := by
  constructor
  · intro run
    have both := run.invariant (fun operations last =>
        Distinct last ∧ Run (Where (Step streaming) Meets) [] operations last)
      ⟨HashTable.distinct_nil, .start _⟩
    apply (both _).2
    intro history container operation later sofar taken
    have meets := (behaves_iff sofar.1 taken.1).mp taken.2
    exact ⟨taken.2.1, sofar.2.next ⟨taken.1, meets⟩⟩
  · intro run
    have both := run.invariant (fun operations last =>
        Distinct last ∧ Run (fun container operation later => Step streaming container operation later ∧
          Behaves container operation later) [] operations last)
      ⟨HashTable.distinct_nil, .start _⟩
    apply (both _).2
    intro history container operation later sofar taken
    have behaves := (behaves_iff sofar.1 taken.1).mpr taken.2
    exact ⟨behaves.1, sofar.2.next ⟨taken.1, behaves⟩⟩

end Invariant

section Streams

variable {Text ν β γ : Type} [FifoBuffer β] [FifoBuffer γ] {utf8 : Bool}

/-- A type with its two `serialize` methods, and the values that come back. -/
structure Streamed (utf8 : Bool) (β γ : Type) [FifoBuffer β] [FifoBuffer γ] (α : Type) where
  write : α → StreamM (OByteStream β) Unit
  read : α → StreamM (IByteStream γ) α
  initial : α
  encode : α → List UInt8
  Carried : α → Prop
  writes : ∀ value, Carried value → Writes (WriterHolds utf8) (write value) (encode value)
  reads : ∀ value old, Carried value →
    Reads (ReaderHolds utf8) (read old) (encode value) (fun read => read = value)

/-- `RpcStringType<std::string, maxLength, sizeBits>`. -/
def rpcString {maxLength sizeBits : Nat} (sizeField : SizeFieldValid maxLength sizeBits) :
    Streamed utf8 β γ (List UInt8) where
  write value := OStream.writeString value maxLength sizeBits
  read _ := IStream.readString maxLength sizeBits
  initial := []
  encode := stringBytes sizeBits
  Carried value := value.length ≤ maxLength
  writes value short := (writes_string sizeField value short).keeping (keeps_write_string _ _ _)
  reads value _ short := (reads_string sizeField value short).keeping (keeps_read_string _ _)

/-- `RpcStringType<std::wstring, maxLength>`, for strings that their size field delimits. -/
def rpcWString (maxLength : Nat) : Streamed utf8 β γ (List WChar) where
  write value := OStream.writeWString value maxLength ByteType.stringSizeBits
  read _ := IStream.readWString maxLength ByteType.stringSizeBits
  initial := []
  encode := (ByteType.wstring maxLength).encode utf8
  Carried value := (ByteType.wstring maxLength).Valid value ∧
    (ByteType.wstring maxLength).Delimited utf8 value ∧ value.length ≤ maxLength
  writes value carried := field_writes utf8 (.wstring maxLength) value carried.1
  reads value _ carried := by
    have reads := field_reads (β := γ) utf8 (.wstring maxLength) value carried.1 carried.2.1
    rw [ByteType.expected, List.take_of_length_le carried.2.2] at reads
    exact reads

/-- `RHashSet`. Each round reads a new string. -/
def rHashSet (text : Streamed utf8 β γ Text) : Streaming Text Unit (OByteStream β) (IByteStream γ) where
  writeSize size := OStream.writeUInt16 (UInt16.ofNat size) defaultContainerSizeBits
  writeElement element := text.write element.1
  readSize := do
    let size ← IStream.readUInt16 defaultContainerSizeBits
    pure size.toNat
  readElement _ := do
    let rt ← text.read text.initial
    pure (rt, ())
  initial := (text.initial, ())

/-- `RHashMap`. The loop reads into one key and one value. -/
def rHashMap (text : Streamed utf8 β γ Text) (mapped : Streamed utf8 β γ ν) :
    Streaming Text ν (OByteStream β) (IByteStream γ) where
  writeSize size := OStream.writeUInt32 (UInt32.ofNat size) defaultContainerSizeBits
  writeElement element := do
    text.write element.1
    mapped.write element.2
  readSize := do
    let size ← IStream.readUInt32 defaultContainerSizeBits
    pure size.toNat
  readElement element := do
    let key ← text.read element.1
    let value ← mapped.read element.2
    pure (key, value)
  initial := (text.initial, mapped.initial)

structure Carrying (utf8 : Bool) (streaming : Streaming Text ν (OByteStream β) (IByteStream γ)) where
  encodeSize : Nat → List UInt8
  encode : Text × ν → List UInt8
  Carried : Text × ν → Prop
  writesSize : ∀ size, size ≤ maxContainerSize →
    Writes (WriterHolds utf8) (streaming.writeSize size) (encodeSize size)
  readsSize : ∀ size, size ≤ maxContainerSize →
    Reads (ReaderHolds utf8) streaming.readSize (encodeSize size) (fun read => read = size)
  writesElement : ∀ element, Carried element →
    Writes (WriterHolds utf8) (streaming.writeElement element) (encode element)
  readsElement : ∀ element old, Carried element →
    Reads (ReaderHolds utf8) (streaming.readElement old) (encode element) (fun read => read = element)

def rHashSetCarrying (text : Streamed utf8 β γ Text) : Carrying utf8 (rHashSet text) where
  encodeSize size := littleEndian 2 size
  encode element := text.encode element.1
  Carried element := text.Carried element.1
  writesSize size few := by
    have writes := NumericType.writes (β := β) .uint16 defaultContainerSizeBits (UInt16.ofNat size)
    rw [NumericType.encode, size16_exact few] at writes
    exact writes.keeping (keeps_numeric_write _ _ _)
  readsSize size few := by
    have reads := NumericType.reads (β := γ) .uint16 defaultContainerSizeBits (UInt16.ofNat size)
    rw [NumericType.encode, size16_exact few] at reads
    apply (reads.keeping (keeps_numeric_read _ _)).returning
    intro read same
    rw [same, size16_exact few]
  writesElement element carried := text.writes element.1 carried
  readsElement element _ carried := by
    apply (text.reads element.1 text.initial carried).returning
    intro rt same
    rw [same]

def rHashMapCarrying (text : Streamed utf8 β γ Text) (mapped : Streamed utf8 β γ ν) :
    Carrying utf8 (rHashMap text mapped) where
  encodeSize size := littleEndian 4 size
  encode element := text.encode element.1 ++ mapped.encode element.2
  Carried element := text.Carried element.1 ∧ mapped.Carried element.2
  writesSize size few := by
    have writes := NumericType.writes (β := β) .uint32 defaultContainerSizeBits (UInt32.ofNat size)
    rw [NumericType.encode, size32_exact few] at writes
    exact writes.keeping (keeps_numeric_write _ _ _)
  readsSize size few := by
    have reads := NumericType.reads (β := γ) .uint32 defaultContainerSizeBits (UInt32.ofNat size)
    rw [NumericType.encode, size32_exact few] at reads
    apply (reads.keeping (keeps_numeric_read _ _)).returning
    intro read same
    rw [same, size32_exact few]
  writesElement element carried :=
    (text.writes element.1 carried.1).bind (mapped.writes element.2 carried.2)
  readsElement element old carried := by
    apply (text.reads element.1 old.1 carried.1).bind
    intro key sameKey
    apply (mapped.reads element.2 old.2 carried.2).returning
    intro value sameValue
    rw [sameKey, sameValue]

variable {streaming : Streaming Text ν (OByteStream β) (IByteStream γ)}

def Carrying.bytes (carrying : Carrying utf8 streaming) (container : Table Text ν) : List UInt8 :=
  carrying.encodeSize container.length ++ (container.map entry).flatMap carrying.encode

theorem serialize_writes (carrying : Carrying utf8 streaming) {container : Table Text ν}
    (few : container.length ≤ maxContainerSize)
    (carried : ∀ node ∈ container, carrying.Carried (entry node)) :
    Writes (WriterHolds utf8) (serialize streaming container) (carrying.bytes container) := by
  unfold serialize
  rw [List.take_of_length_le (by rw [List.length_map]; exact few)]
  apply (writes_require (decide_eq_true few) _).bind
  apply (carrying.writesSize container.length few).bind
  apply writes_each
  intro element member
  obtain ⟨node, contained, same⟩ := List.mem_map.mp member
  rw [← same]
  exact carrying.writesElement (entry node) (carried node contained)

def placed (place : Nat → UInt64) : Nat → List (Text × ν) → List (Key Text × ν)
  | _, [] => []
  | round, element :: rest => (⟨element.1, place round⟩, element.2) :: placed place (round + 1) rest

theorem placed_entries (place : Nat → UInt64) (round : Nat) (elements : List (Text × ν)) :
    ((placed place round elements).map node).map entry = elements := by
  induction elements generalizing round with
  | nil => rfl
  | cons element rest induction =>
      rw [placed, List.map_cons, List.map_cons, induction]
      rfl

variable [DecidableEq Text]

theorem decode_elements_reads (carrying : Carrying utf8 streaming) (place : Nat → UInt64)
    {elements : List (Text × ν)} (carried : ∀ element ∈ elements, carrying.Carried element)
    (round : Nat) (old : Text × ν) (container : Table Text ν) {istream : IByteStream γ}
    {rest : List UInt8} (held : ReaderHolds utf8 istream (elements.flatMap carrying.encode ++ rest)) :
    ∃ after, Runs (decodeElements streaming place elements.length round old) ⟨container, istream⟩ ()
        ⟨load container ((placed place round elements).map node), after⟩ ∧
      ReaderHolds utf8 after rest := by
  induction elements generalizing round old container istream with
  | nil => exact ⟨istream, runs_pure _ _, held⟩
  | cons element others induction =>
      rw [List.flatMap_cons, List.append_assoc] at held
      obtain ⟨read, middle, reads, same, middleHeld⟩ :=
        carrying.readsElement element old (carried element List.mem_cons_self) istream _ held
      rw [same] at reads
      obtain ⟨after, runs, afterHeld⟩ := induction
        (fun other member => carried other (List.mem_cons_of_mem _ member)) _ _ _ middleHeld
      exact ⟨after, (on_stream_runs reads).bind ((runs_modify _ _).bind runs), afterHeld⟩

/-- A container without equal keys comes back, wherever its strings are read to. -/
theorem deserialize_reads (carrying : Carrying utf8 streaming) (place : Nat → UInt64)
    {container received : Table Text ν} (distinct : Distinct container)
    (few : container.length ≤ maxContainerSize)
    (carried : ∀ node ∈ container, carrying.Carried (entry node)) {istream : IByteStream γ}
    {rest : List UInt8} (held : ReaderHolds utf8 istream (carrying.bytes container ++ rest)) :
    ∃ later, Runs (deserialize streaming place) ⟨received, istream⟩ () later ∧
      (later.container.map entry).Perm (container.map entry) ∧ ReaderHolds utf8 later.istream rest := by
  rw [Carrying.bytes, List.append_assoc] at held
  obtain ⟨size, middle, sizeRuns, same, middleHeld⟩ :=
    carrying.readsSize container.length few istream _ held
  rw [same] at sizeRuns
  have carriedEntries : ∀ element ∈ container.map entry, carrying.Carried element := by
    intro element member
    obtain ⟨node, contained, sameEntry⟩ := List.mem_map.mp member
    rw [← sameEntry]
    exact carried node contained
  obtain ⟨after, runs, afterHeld⟩ :=
    decode_elements_reads carrying place carriedEntries 0 streaming.initial [] middleHeld
  rw [List.length_map] at runs
  refine ⟨_, (runs_modify _ _).bind ((on_stream_runs sizeRuns).bind
    ((runs_require (decide_eq_true few) _ _).bind runs)), ?_, afterHeld⟩
  have entries := placed_entries place 0 (container.map entry)
  have fresh : Distinct ((placed place 0 (container.map entry)).map node) := by
    unfold Distinct
    rw [HashTable.keys_of_entries, entries, ← HashTable.keys_of_entries]
    exact distinct
  have loaded : (load [] ((placed place 0 (container.map entry)).map node)).Perm
      ((placed place 0 (container.map entry)).map node ++ []) :=
    HashTable.load_distinct fresh fun _ _ => List.not_mem_nil
  rw [List.append_nil] at loaded
  have perm := loaded.map entry
  rw [entries] at perm
  exact perm

/-- The container that the run leaves is written, and read into any other as the same
strings and values. -/
def Decodes (carrying : Carrying utf8 streaming) (container : Table Text ν) : Prop :=
  container.length ≤ maxContainerSize → (∀ node ∈ container, carrying.Carried (entry node)) →
    ∃ bytes, Writes (WriterHolds utf8) (serialize streaming container) bytes ∧
      ∀ (place : Nat → UInt64) (received : Table Text ν) (istream : IByteStream γ) (rest : List UInt8),
        ReaderHolds utf8 istream (bytes ++ rest) →
        ∃ later, Runs (deserialize streaming place) ⟨received, istream⟩ () later ∧
          (later.container.map entry).Perm (container.map entry) ∧ ReaderHolds utf8 later.istream rest

structure RespectsEquality (carrying : Carrying utf8 streaming) (operations : List (Operation Text ν))
    (container : Table Text ν) : Prop where
  hashes : ∀ first ∈ hashedKeys operations, ∀ second ∈ hashedKeys operations,
    first.text = second.text → hashOf first = hashOf second
  finds : FindsRight operations
  distinct : Distinct container
  decodes : Decodes carrying container

theorem respects_iff (carrying : Carrying utf8 streaming) {operations : List (Operation Text ν)}
    {container : Table Text ν} (run : Run (Step streaming) [] operations container) :
    RespectsEquality carrying operations container ↔ OnePlace operations := by
  constructor
  · intro respects
    exact respects.hashes
  · intro onePlace
    have sound : Sound operations container := sound_run run onePlace
    refine ⟨onePlace, sound.finds, sound.distinct, ?_⟩
    intro few carried
    refine ⟨carrying.bytes container, serialize_writes carrying few carried, ?_⟩
    intro place received istream rest held
    exact deserialize_reads carrying place sound.distinct few carried held

/-- Sets and maps with strings as keys respect the equality of strings in exactly the runs in
which equal strings are hashed at one address. -/
theorem strings_are_hashed_by_place (text : Streamed utf8 β γ Text) (mapped : Streamed utf8 β γ ν) :
    (∀ operations container, Run (Step (rHashSet text)) [] operations container →
      (RespectsEquality (rHashSetCarrying text) operations container ↔ OnePlace operations)) ∧
    (∀ operations container, Run (Step (rHashMap text mapped)) [] operations container →
      (RespectsEquality (rHashMapCarrying text mapped) operations container ↔ OnePlace operations)) := by
  constructor
  · intro operations container run
    exact respects_iff (rHashSetCarrying text) run
  · intro operations container run
    exact respects_iff (rHashMapCarrying text mapped) run

end Streams

section Strings

def rString : Streamed true ByteQueue ByteQueue (List UInt8) := rpcString Param.string_size_field

def rWString : Streamed true ByteQueue ByteQueue (List WChar) := rpcWString ushrtMax

def stringA (address : UInt64) : Key (List UInt8) := { text := [97], address }

def stringB (address : UInt64) : Key (List UInt8) := { text := [98], address }

def twoObjects {Text ν : Type} (first second : Key Text) (value other : ν) : List (Operation Text ν) :=
  [.insert first value, .insert second other, .insert first other, .find first true, .find second true]

theorem run_two_objects {Text ν : Type} [DecidableEq Text] {first second : Key Text} (value other : ν)
    (different : first.text ≠ second.text)
    (streaming : Streaming Text ν (OByteStream ByteQueue) (IByteStream ByteQueue)) :
    Run (Step streaming) [] (twoObjects first second value other)
      [node (second, other), node (first, value)] := by
  have fresh : second.text ∉ keys [node (first, value)] := by
    intro member
    exact different (List.mem_singleton.mp member).symm
  have inserted : HashTable.insert second.text other (hashOf second) [node (first, value)] =
      [node (second, other), node (first, value)] := HashTable.insert_new fresh
  have firstFound : contains first.text (hashOf first) [node (second, other), node (first, value)] = true :=
    HashTable.contains_iff.mpr ⟨node (first, value), List.mem_cons_of_mem _ List.mem_cons_self, rfl, rfl⟩
  have secondFound : contains second.text (hashOf second)
      [node (second, other), node (first, value)] = true :=
    HashTable.contains_iff.mpr ⟨node (second, other), List.mem_cons_self, rfl, rfl⟩
  have kept : HashTable.insert first.text other (hashOf first) [node (second, other), node (first, value)] =
      [node (second, other), node (first, value)] := if_pos firstFound
  have finds : ∀ key, contains key.text (hashOf key) [node (second, other), node (first, value)] = true →
      Step streaming [node (second, other), node (first, value)] (.find key true)
        [node (second, other), node (first, value)] := by
    intro key found
    rw [← found]
    exact .find _ key
  unfold twoObjects
  apply Run.cons (.insert [] [node (first, value)] first value (List.Perm.refl _))
  apply Run.cons (.insert _ _ second other (List.Perm.of_eq inserted.symm))
  apply Run.cons (.insert _ _ first other (List.Perm.of_eq kept.symm))
  exact .cons (finds first firstFound) (.cons (finds second secondFound) (.start _))

theorem strings_are_hashed_by_place_two_objects :
    RespectsEquality (rHashSetCarrying rString) (twoObjects (stringA 4096) (stringB 8192) () ())
        [node (stringB 8192, ()), node (stringA 4096, ())] ∧
      RespectsEquality (rHashMapCarrying rWString rString)
        (twoObjects ⟨[0xac00], 8192⟩ ⟨[0xac01], 4096⟩ [98] [99])
        [node (⟨[0xac01], 4096⟩, [99]), node (⟨[0xac00], 8192⟩, [98])] := by
  constructor
  · apply ((strings_are_hashed_by_place rString rString).1 _ _ (run_two_objects _ _ (by decide) _)).mpr
    unfold OnePlace
    decide
  · apply ((strings_are_hashed_by_place rWString rString).2 _ _ (run_two_objects _ _ (by decide) _)).mpr
    unfold OnePlace
    decide

/-- Two objects with one string are both taken in, and a third one is not found. -/
theorem equal_strings_are_apart :
    ∃ container, Run (Step (rHashSet rString)) []
        [.insert (stringA 4096) (), .insert (stringA 8192) (), .find (stringA 12288) false] container ∧
      keys container = [[97], [97]] ∧
      ¬RespectsEquality (rHashSetCarrying rString)
        [.insert (stringA 4096) (), .insert (stringA 8192) (), .find (stringA 12288) false] container := by
  refine ⟨[node (stringA 8192, ()), node (stringA 4096, ())], ?_, rfl, ?_⟩
  · apply Run.cons (.insert [] [node (stringA 4096, ())] (stringA 4096) () (List.Perm.refl _))
    apply Run.cons (.insert _ [node (stringA 8192, ()), node (stringA 4096, ())]
      (stringA 8192) () (List.Perm.refl _))
    exact Run.cons (.find _ (stringA 12288)) (.start _)
  · intro respects
    have first : [97] ∉ keys [node (stringA 4096, ())] := (List.nodup_cons.mp respects.distinct).1
    exact first List.mem_cons_self

end Strings

end Sne.Srpc.HashContainers
