import Mathlib.Data.List.Forall2
import Sne.Srpc.RpcTypes

/-!
# Requests on a connection

`SqlServerProxyDatabase.cpp` with `AdoDatabase.cpp`. A request names a stored procedure and its
parameters. Each parameter becomes one of the command, and the command is executed. What the
database does with a parameter or with a command is not known here. Where it fails, an exception
leaves `call`, or `call` returns false, or nothing happens.
-/

namespace Sne.Database

open Sne.Core Sne.Srpc

set_option autoImplicit false

/-- A parameter of an `AdoCommand`. Strings come with the size of their buffer. -/
inductive AdoParameter where
  | integer (value : Int32)
  | unsignedInt (value : UInt32)
  | bigInt (value : Int64)
  | varChar (size : Nat) (value : List UInt8)
  | varWChar (size : Nat) (value : List WChar)
  deriving DecidableEq, Repr

structure AdoCommand where
  command : List UInt8
  params : List AdoParameter
  deriving DecidableEq, Repr

/-- The database behind ADO, and whether it does what it is asked for. `createsCommand` and
`createsParameter` are the constructors, which also append the parameter. -/
structure AdoDatabase where
  createsCommand : List UInt8 → Bool
  createsParameter : AdoParameter → Bool
  addParameter : AdoParameter → Bool
  setValue : AdoParameter → Bool
  executeNoRecords : AdoCommand → Bool

/-- What `call` returns, and the command that it has executed. -/
structure CallResult where
  executed : Option AdoCommand
  succeeded : Bool
  deriving DecidableEq, Repr

def refused : CallResult := { executed := none, succeeded := false }

/-- `call` returns, or an exception leaves it, which nobody catches. -/
abbrev CallOutcome := Option CallResult

namespace SqlServerProxyDatabase

/-- A 64-bit number without a sign is set as one with a sign. -/
def createAdoParameter (param : Param) : Option AdoParameter :=
  match param.type with
  | .int32 => some (.integer param.int32Value)
  | .uint32 => some (.unsignedInt param.uint32Value)
  | .int64 => some (.bigInt param.int64Value)
  | .uint64 => some (.bigInt param.uint64Value.toInt64)
  | .string => some (.varChar param.stringValue.length param.stringValue)
  | .wstring => some (.varWChar param.wstringValue.length param.wstringValue)
  | .unknown => none
  | .other _ _ => none

/-- The loop over the parameters, to those that the command has at its end. It returns false for a
parameter without a type or when a value cannot be set. The constructor of a parameter throws a
`_com_error`, but ignores that `addParameter` fails. -/
def createAdoParameters (database : AdoDatabase) : List Param → Except CallOutcome (List AdoParameter)
  | [] => .ok []
  | param :: rest =>
      match createAdoParameter param with
      | none => .error (some refused)
      | some adoParam =>
          if !database.createsParameter adoParam then
            .error none
          else if !database.setValue adoParam then
            .error (some refused)
          else
            (createAdoParameters database rest).map fun adoParams =>
              if database.addParameter adoParam then adoParam :: adoParams else adoParams

def isValidPriority : RequestPriority → Bool
  | .other _ _ => false
  | _ => true

/-- `ModifyRequest::isValid`. -/
def isValid (request : ModifyRequest) : Bool :=
  isValidPriority request.priority && request.type != .unknown && !request.command.isEmpty &&
    !request.params.isEmpty

/-- The command is constructed before the `try`. -/
def call (database : AdoDatabase) (request : ModifyRequest) : CallOutcome :=
  if !isValid request then
    some refused
  else if request.type ≠ .storedProcedure then
    some refused
  else if !database.createsCommand request.command then
    none
  else
    match createAdoParameters database request.params with
    | .error outcome => outcome
    | .ok params =>
        let command : AdoCommand := { command := request.command, params }
        some { executed := some command, succeeded := database.executeNoRecords command }

theorem create_ado_parameter_same {left right : Param} (same : left.Same right) :
    createAdoParameter left = createAdoParameter right := by
  obtain ⟨sameType, sameValue⟩ := same
  unfold createAdoParameter
  rw [← sameType]
  cases type : left.type with
  | int32 =>
      rw [type] at sameValue
      simp only [show left.int32Value = right.int32Value from sameValue]
  | uint32 =>
      rw [type] at sameValue
      simp only [show left.uint32Value = right.uint32Value from sameValue]
  | int64 =>
      rw [type] at sameValue
      simp only [show left.int64Value = right.int64Value from sameValue]
  | uint64 =>
      rw [type] at sameValue
      simp only [show left.uint64Value = right.uint64Value from sameValue]
  | string =>
      rw [type] at sameValue
      simp only [show left.stringValue = right.stringValue from sameValue]
  | wstring =>
      rw [type] at sameValue
      simp only [show left.wstringValue = right.wstringValue from sameValue]
  | unknown => rfl
  | other => rfl

theorem create_ado_parameters_same (database : AdoDatabase) {left right : List Param}
    (same : List.Forall₂ Param.Same left right) :
    createAdoParameters database left = createAdoParameters database right := by
  induction same with
  | nil => rfl
  | cons first _ induction =>
      rw [createAdoParameters, createAdoParameters, create_ado_parameter_same first, induction]

/-- Only what a request stands for counts: the fields that the types of its parameters select. -/
theorem call_same (database : AdoDatabase) {left right : ModifyRequest} (same : left.Same right) :
    call database left = call database right := by
  obtain ⟨priority, type, command, params⟩ := same
  have empty : left.params.isEmpty = right.params.isEmpty := by
    rw [Bool.eq_iff_iff, List.isEmpty_iff_length_eq_zero, List.isEmpty_iff_length_eq_zero,
      params.length_eq]
  rw [call, call, isValid, isValid, priority, type, command, empty,
    create_ado_parameters_same database params]

theorem refused_without_command {database : AdoDatabase} {params : List Param} {outcome : CallOutcome}
    (failed : createAdoParameters database params = .error outcome) :
    outcome = none ∨ outcome = some refused := by
  induction params with
  | nil => cases failed
  | cons param rest induction =>
      unfold createAdoParameters at failed
      split at failed
      · cases failed
        exact .inr rfl
      split at failed
      · cases failed
        exact .inl rfl
      split at failed
      · cases failed
        exact .inr rfl
      cases others : createAdoParameters database rest with
      | ok later =>
          rw [others] at failed
          cases failed
      | error earlier =>
          rw [others] at failed
          cases failed
          exact induction others

theorem ado_parameters_of_params {database : AdoDatabase} {params : List Param}
    {adoParams : List AdoParameter} (created : createAdoParameters database params = .ok adoParams) :
    ∃ all : List AdoParameter, params.map createAdoParameter = all.map some ∧
      adoParams = all.filter database.addParameter := by
  induction params generalizing adoParams with
  | nil =>
      cases created
      exact ⟨[], rfl, rfl⟩
  | cons param rest induction =>
      unfold createAdoParameters at created
      split at created
      · cases created
      rename_i adoParam first
      split at created
      · cases created
      split at created
      · cases created
      cases others : createAdoParameters database rest with
      | error outcome =>
          rw [others] at created
          cases created
      | ok later =>
          rw [others] at created
          cases created
          rcases induction others with ⟨all, params, appended⟩
          refine ⟨adoParam :: all, ?_, ?_⟩
          · rw [List.map_cons, List.map_cons, first, params]
          · rw [List.filter_cons, appended]

/-- The command that is executed is that of the request, with those of its parameters, in their order,
that could be added. -/
theorem executed_command {database : AdoDatabase} {request : ModifyRequest} {result : CallResult}
    (called : call database request = some result) {command : AdoCommand}
    (executed : result.executed = some command) :
    request.type = .storedProcedure ∧ command.command = request.command ∧
      ∃ all : List AdoParameter, request.params.map createAdoParameter = all.map some ∧
        command.params = all.filter database.addParameter := by
  unfold call at called
  split at called
  · cases called
    cases executed
  split at called
  · cases called
    cases executed
  rename_i type
  split at called
  · cases called
  cases created : createAdoParameters database request.params with
  | error outcome =>
      have ends := refused_without_command created
      rw [created] at called
      cases called
      rcases ends with none | some
      · cases none
      · cases some
        cases executed
  | ok params =>
      rw [created] at called
      cases called
      cases executed
      exact ⟨not_not.mp type, rfl, ado_parameters_of_params created⟩

end SqlServerProxyDatabase

end Sne.Database
