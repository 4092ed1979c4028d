import Pouch.EntryWriter
import Mathlib.Logic.Function.Basic

set_option autoImplicit false

namespace Pouch

def CString.drop (text : CString) (count : Nat) : CString :=
  ⟨text.bytes.drop count, fun byte member => text.noNul byte (List.mem_of_mem_drop member)⟩

def asterisk : UInt8 := 0x2a

/-- `struct golioth_downlink_service` without its state. For an empty path the code looks at the byte
in front of it, `before`. -/
structure DownlinkService where
  path : CString
  before : UInt8
  hasStartCb : Bool

-- An ID in the bits of an `int`, which is compared with the `unsigned int` of a stream.
abbrev DownlinkId := UInt32

def downlinkIdInvalid : DownlinkId := 0xffffffff

-- The registered services are numbered in the order of their section.
structure Dispatch where
  downlinkIds : Nat → DownlinkId
  lastSeen : Option Nat

def Dispatch.boot : Dispatch := ⟨fun _ => downlinkIdInvalid, none⟩

inductive ServiceCall where
  | startCb (service : Nat) (id : DownlinkId) (pathRemainder : Option CString)
  | dataCb (service : Nat) (id : DownlinkId) (data : List UInt8) (isLast : Bool)

def DownlinkService.isPartial (service : DownlinkService) : Bool :=
  service.path.bytes.getLast?.getD service.before = asterisk

-- `path_len`, which wraps for an empty path after an asterisk.
def DownlinkService.pathLen (cfg : Config) (service : DownlinkService) : Nat :=
  if service.isPartial then cfg.sizeSub service.path.bytes.length 1 else service.path.bytes.length

-- `strncmp` finds no difference.
def strncmpEqual (first second : CString) (length : Nat) : Bool :=
  first.bytes.take length = second.bytes.take length

def DownlinkService.selects (cfg : Config) (service : DownlinkService) (path : CString) : Bool :=
  strncmpEqual service.path path (service.pathLen cfg)

def DownlinkService.pathRemainder (cfg : Config) (service : DownlinkService) (path : CString) :
    Option CString :=
  let rest := path.drop (service.pathLen cfg)
  if service.isPartial ∧ 0 < rest.bytes.length then some rest else none

section Model

variable (cfg : Config) (services : List DownlinkService)

def selectService (path : CString) : Option (DownlinkService × Nat) :=
  services.zipIdx.find? fun entry => entry.1.selects cfg path

def dispatchStart (dispatch : Dispatch) (id : DownlinkId) (path : CString) : Dispatch × List ServiceCall :=
  match selectService cfg services path with
  -- `last_seen` stays what it was.
  | none => (dispatch, [])
  | some (service, index) =>
    ({ downlinkIds := Function.update dispatch.downlinkIds index id
       lastSeen := some index },
      if service.hasStartCb then [.startCb index id (service.pathRemainder cfg path)] else [])

def activeService (dispatch : Dispatch) (id : DownlinkId) : Option Nat :=
  let search := (List.range services.length).find? fun index => dispatch.downlinkIds index = id
  match dispatch.lastSeen with
  | some index => if dispatch.downlinkIds index = id then some index else search
  | none => search

def dispatchData (dispatch : Dispatch) (id : DownlinkId) (data : List UInt8) (isLast : Bool) :
    Dispatch × List ServiceCall :=
  match activeService services dispatch id with
  | none => (dispatch, [])
  | some index =>
    let next : Dispatch :=
      { downlinkIds := Function.update dispatch.downlinkIds index downlinkIdInvalid
        lastSeen := none }
    (if isLast then next else dispatch, [.dataCb index id data isLast])

-- The two callbacks of the pouch library.
inductive DispatchOp where
  | start (id : DownlinkId) (path : CString)
  | data (id : DownlinkId) (data : List UInt8) (isLast : Bool)

def DispatchOp.id : DispatchOp → DownlinkId
  | .start id _ => id
  | .data id _ _ => id

def dispatchStep (dispatch : Dispatch) : DispatchOp → Dispatch × List ServiceCall
  | .start id path => dispatchStart cfg services dispatch id path
  | .data id data isLast => dispatchData services dispatch id data isLast

end Model

section Specs

variable {cfg : Config} {services : List DownlinkService}

theorem selectService_bound {path : CString} {service : DownlinkService} {index : Nat}
    (selected : selectService cfg services path = some (service, index)) : index < services.length := by
  have member := List.mem_of_find?_eq_some selected
  have bound := List.snd_lt_of_mem_zipIdx member
  omega

theorem activeService_spec (dispatch : Dispatch) (id : DownlinkId)
    (inside : ∀ index, dispatch.downlinkIds index = id → index < services.length) :
    (∃ index, activeService services dispatch id = some index ∧ dispatch.downlinkIds index = id) ∨
    (activeService services dispatch id = none ∧ ∀ index, dispatch.downlinkIds index ≠ id) := by
  have search : (∃ index, (List.range services.length).find? (fun index => dispatch.downlinkIds index = id) =
        some index ∧ dispatch.downlinkIds index = id) ∨
      ((List.range services.length).find? (fun index => dispatch.downlinkIds index = id) = none ∧
        ∀ index, dispatch.downlinkIds index ≠ id) := by
    cases found : (List.range services.length).find? (fun index => dispatch.downlinkIds index = id) with
    | some index => exact .inl ⟨index, rfl, by simpa using List.find?_some found⟩
    | none =>
      right
      refine ⟨rfl, ?_⟩
      intro index same
      have absent := List.find?_eq_none.mp found index (List.mem_range.mpr (inside index same))
      simp [same] at absent
  unfold activeService
  cases dispatch.lastSeen with
  | none => exact search
  | some index =>
    by_cases same : dispatch.downlinkIds index = id
    next => exact .inl ⟨index, by simp [same], same⟩
    next =>
      simp only [same, if_false]
      exact search

end Specs

end Pouch
