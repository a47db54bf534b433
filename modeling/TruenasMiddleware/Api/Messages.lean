import Mathlib.Tactic.SplitIfs
import Mathlib.Tactic.Tauto

/-! A message on a websocket: `parse_message`, the loop of the RPC handler, `process_message` and
`process_method_call`. -/

namespace TruenasMiddleware.Messages

/-- What `ejson.loads` makes of a member; `other` is a float, a date, a time or a set. -/
inductive Value
  | null
  | int (value : Int)
  | text (value : String)
  | list
  | object
  | other
deriving DecidableEq

namespace Value

def hashable (value : Value) : Bool := value != .list && value != .object

def isId : Value → Bool
  | .null | .int _ | .text _ => true
  | _ => false

def isMethod : Value → Bool
  | .text name => name != ""
  | _ => false

end Value

abbrev Message := String → Option Value

inductive Loaded
  | valueError (text : String)
  | raises
  | object (message : Message)
  | list
  | other

inductive MsgSizeLimit
  | unauthenticated
  | authenticated
  | extended
deriving DecidableEq

def MsgSizeLimit.value : MsgSizeLimit → Nat
  | .unauthenticated => 8192
  | .authenticated => 65536
  | .extended => 2097152

def extendedMethods : List Value :=
  [.text "filesystem.file_receive", .text "failover.datastore.sql"]

inductive Parsed
  | message (message : Message)
  | msgSizeError (limit : MsgSizeLimit) (datalen : Nat) (method : Option Value := none)
  | valueError (text : String)
  | raises

/-- A lookup in the set of methods hashes the member first. -/
def checkMethod (message : Message) (datalen : Nat) : Parsed :=
  if (message "method").any (!·.hashable) then .raises
  else if (message "method").any extendedMethods.contains then .message message
  else if MsgSizeLimit.authenticated.value < datalen then
    .msgSizeError .authenticated datalen (message "method")
  else .message message

def parseMessage (loads : String → Loaded) (authenticated : Bool) (data : String) : Parsed :=
  if authenticated = false ∧ MsgSizeLimit.unauthenticated.value < data.length then
    .msgSizeError .unauthenticated data.length
  else if MsgSizeLimit.extended.value < data.length then .msgSizeError .extended data.length
  else match loads data with
    | .valueError text => .valueError text
    | .raises => .raises
    | .list => .valueError "Batch messages are not supported at this time"
    | .other => .valueError "Invalid Message Format"
    | .object message => checkMethod message data.length

inductive JSONRPCError
  | invalidJson
  | invalidRequest
  | methodNotFound
  | invalidParams
  | internalError
  | tooManyConcurrentCalls
  | callError

structure Response where
  id : Value
  error : Option JSONRPCError := none

inductive WSCloseCode
  | invalidText
  | messageTooBig

inductive Reaction
  | close (code : WSCloseCode)
  | send (response : Response) (text : String)
  | process (message : Message)
  | unhandled

def react : Parsed → Reaction
  | .message message => .process message
  | .msgSizeError limit _ _ =>
    .close (if limit = .unauthenticated then .invalidText else .messageTooBig)
  | .valueError text => .send ⟨.null, some .invalidJson⟩ text
  | .raises => .unhandled

def validateMessage (message : Message) : Option String :=
  if message "jsonrpc" = none then some "Missing 'jsonrpc' member"
  else if message "jsonrpc" ≠ some (.text "2.0") then
    some "'jsonrpc' member must be of type string and must be exactly '2.0'"
  else if (message "id").any (!·.isId) then
    some "'id' member must be of type null, string or number"
  else if message "method" = none then some "Missing 'method' member"
  else if (message "method").any (!·.isMethod) then some "'method' member must be of type string"
  else if (message "params").any (· != .list) then some "'params' member must be of type array"
  else none

inductive Ending
  | returns
  | softHardSemaphoreLimit
  | validationErrors
  | callException
  | exception
  | baseException

/-- Without an id nothing is sent; what cannot be dumped is replaced by an error. -/
def send (dumps : Bool) (id : Option Value) (error : Option JSONRPCError) : List Response :=
  id.toList.map fun id => ⟨id, if dumps then error else some .internalError⟩

def processMethodCall (dumps : Bool) (id : Option Value) : Ending → List Response
  | .returns => send dumps id none
  | .softHardSemaphoreLimit => send dumps id (some .tooManyConcurrentCalls)
  | .validationErrors => send dumps id (some .invalidParams)
  | .callException | .exception => send dumps id (some .callError)
  | .baseException => []

def processMessage (methods : Value → Bool) (ending : Ending) (dumps : Bool) (message : Message) :
    List Response :=
  if (validateMessage message).isSome then send true (message "id") (some .invalidRequest)
  else if (message "method").any methods then processMethodCall dumps (message "id") ending
  else send true (message "id") (some .methodNotFound)

variable (loads : String → Loaded) (authenticated : Bool) (data : String)
  (methods : Value → Bool) (ending : Ending) (dumps : Bool)

def limitOf (message : Message) : MsgSizeLimit :=
  if authenticated = false then .unauthenticated
  else if (message "method").any extendedMethods.contains then .extended
  else .authenticated

def Parsed.Orderly : Parsed → Prop
  | .message parsed => data.length ≤ (limitOf authenticated parsed).value
  | .raises => False
  | _ => True

def Handled : Prop :=
  (parseMessage loads authenticated data).Orderly authenticated data ∧
  react (parseMessage loads authenticated data) ≠ .unhandled ∧
  ∀ message, parseMessage loads authenticated data = .message message →
    validateMessage message = none →
    (processMessage methods ending dumps message).length = (message "id").toList.length

/-- The string is within the limits, and loading or looking up the method raises. -/
def Breaks : Prop :=
  (authenticated = false → data.length ≤ 8192) ∧ data.length ≤ 2097152 ∧
  (loads data = .raises ∨ ∃ message value, loads data = .object message ∧
    message "method" = some value ∧ value.hashable = false)

/-- A call for a request with an id, no longer than it may be, ends in an exception that
`except Exception` lets pass. -/
def Unanswered : Prop :=
  ending = .baseException ∧ ∃ message id, loads data = .object message ∧
    data.length ≤ (limitOf authenticated message).value ∧ validateMessage message = none ∧
    (message "method").any methods = true ∧ message "id" = some id

variable {loads authenticated data methods ending dumps} {message : Message}

theorem checkMethod_raises_iff {datalen : Nat} : checkMethod message datalen = .raises ↔
      ∃ value, message "method" = some value ∧ value.hashable = false := by
  unfold checkMethod
  split_ifs with unhashable
  · simpa [Option.any_eq_true] using unhashable
  all_goals simpa [Option.any_eq_true] using unhashable

theorem parseMessage_raises_iff :
    parseMessage loads authenticated data = .raises ↔ Breaks loads authenticated data := by
  unfold parseMessage Breaks
  split_ifs with small large
  · exact iff_of_false (by simp) fun within => Nat.not_le.mpr small.2 (within.1 small.1)
  · exact iff_of_false (by simp) fun within => Nat.not_le.mpr large within.2.1
  · have within : authenticated = false → data.length ≤ 8192 := fun early =>
      Nat.not_lt.mp fun long => small ⟨early, long⟩
    have below : data.length ≤ 2097152 := Nat.not_lt.mp large
    rw [and_iff_right within, and_iff_right below]
    cases loaded : loads data <;> simp [checkMethod_raises_iff]

theorem limitOf_le : (limitOf authenticated message).value ≤ MsgSizeLimit.extended.value := by
  unfold limitOf
  split_ifs <;> decide

theorem parseMessage_eq_message_iff : parseMessage loads authenticated data = .message message ↔
    loads data = .object message ∧ data.length ≤ (limitOf authenticated message).value ∧
      ¬ (message "method").any (!·.hashable) = true := by
  constructor
  · intro parsed
    unfold parseMessage at parsed
    split_ifs at parsed with small large
    cases loaded : loads data <;> rw [loaded] at parsed
    case object read =>
      simp only [checkMethod] at parsed
      have below : authenticated = false → data.length ≤ 8192 := fun early =>
        Nat.not_lt.mp fun long => small ⟨early, long⟩
      split_ifs at parsed with unhashable exempt long <;> cases parsed <;>
        refine ⟨rfl, ?_, unhashable⟩ <;> unfold limitOf <;> split_ifs
      all_goals first
        | exact below ‹_›
        | exact Nat.not_lt.mp large
        | exact Nat.not_lt.mp long
    all_goals cases parsed
  · rintro ⟨loaded, within, hashable⟩
    have below := Nat.le_trans within limitOf_le
    unfold limitOf at within
    unfold parseMessage
    rw [if_neg (fun long => ?_), if_neg (Nat.not_lt.mpr below), loaded]
    · dsimp only [checkMethod]
      rw [if_neg hashable]
      split_ifs with exempt long
      · rfl
      · rw [if_neg exempt] at within
        have early : MsgSizeLimit.unauthenticated.value < data.length :=
          Nat.lt_trans (by decide) long
        split_ifs at within
        · exact absurd within (Nat.not_le.mpr early)
        · exact absurd within (Nat.not_le.mpr long)
      · rfl
    · rw [if_pos long.1] at within
      exact Nat.not_lt.mpr within long.2

theorem hashable_of_valid (valid : validateMessage message = none) :
    ¬ (message "method").any (!·.hashable) = true := by
  unfold validateMessage at valid
  split_ifs at valid with _ _ _ _ named
  intro unhashable
  obtain ⟨value, given, unhashable⟩ := (Option.any_eq_true _ _).mp unhashable
  rw [given] at named
  cases value <;> simp_all [Value.isMethod, Value.hashable]

theorem length_processMessage (valid : validateMessage message = none) :
    (processMessage methods ending dumps message).length = (message "id").toList.length ↔
      ¬ (ending = .baseException ∧ (message "method").any methods = true ∧
        ∃ id, message "id" = some id) := by
  simp only [processMessage, valid, Option.isSome_none, Bool.false_eq_true, if_false]
  by_cases known : (message "method").any methods = true
  · rw [if_pos known]
    cases ending <;> cases message "id" <;> simp [processMethodCall, send, known]
  · simp [send, known]

theorem messages_handled_iff : Handled loads authenticated data methods ending dumps ↔
    ¬ Breaks loads authenticated data ∧
    ¬ Unanswered loads authenticated data methods ending := by
  rw [← parseMessage_raises_iff, Handled]
  constructor
  · rintro ⟨-, handled, answered⟩
    refine ⟨fun raises => handled (by rw [raises]; rfl), ?_⟩
    rintro ⟨cancelled, message, id, loaded, within, valid, known, given⟩
    have parsed := parseMessage_eq_message_iff.mpr ⟨loaded, within, hashable_of_valid valid⟩
    exact (length_processMessage valid).mp (answered _ parsed valid) ⟨cancelled, known, id, given⟩
  · rintro ⟨caught, answered⟩
    refine ⟨?_, ?_, fun message parsed valid => ?_⟩
    · cases parsed : parseMessage loads authenticated data with
      | message message => exact (parseMessage_eq_message_iff.mp parsed).2.1
      | raises => exact caught parsed
      | _ => trivial
    · cases parsed : parseMessage loads authenticated data with
      | raises => exact absurd parsed caught
      | _ => simp [react]
    · obtain ⟨loaded, within, -⟩ := parseMessage_eq_message_iff.mp parsed
      rw [length_processMessage valid]
      rintro ⟨cancelled, known, id, given⟩
      exact answered ⟨cancelled, message, id, loaded, within, valid, known, given⟩

/-- Received when nobody is logged in: `method` is an empty list. -/
theorem method_list_unhandled :
    react (parseMessage (fun _ => .object fun name => if name = "method" then some .list else none)
      false "\x7b\"method\": []\x7d") = .unhandled := by
  rw [parseMessage_raises_iff.mpr]
  · rfl
  · exact ⟨fun _ => by decide, by decide, .inr ⟨_, .list, rfl, rfl, rfl⟩⟩

end TruenasMiddleware.Messages
