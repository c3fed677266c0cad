import Mathlib
import ServerPages.Proofs.Request.Fitting
import ServerPages.Proofs.Server.Exit

/-!
# Control requests

A message that asks for the process number or asks to exit has no need of user data, but what it has
is checked as in any other message. So it is answered exactly if its user data is absent, null or a
request (`Connection.control_iff`); user data of any other shape keeps it from being answered
(`Connection.exit_misshapen`).
-/

namespace ServerPages

namespace Shape

variable {ms : Members} {pidAsked exitAsked : Bool}

/-- The field of an envelope that asks for the process number. -/
def getPid : FieldNames := ⟨"GetPID".toList, "get_pid".toList⟩

/-- The field of an envelope that asks to exit. -/
def exitNow : FieldNames := ⟨"ExitNow".toList, "exit_now".toList⟩

/-- A flag is given a value without fault; a flag that is not sent is not set. -/
def IsFlag (f : FieldNames) (ms : Members) (b : Bool) : Prop :=
  field flag false f.wire f.page (present ms) = ⟨b, []⟩

/-- The user data among the members, if there is some, is a request. -/
def UserDataFits (ms : Members) : Prop :=
  ∀ name u, userData.member? (present ms) = some (name, u) → IsRequest u

/-- What is read of the user data. -/
def readUserData (ms : Members) : Checked Request :=
  field request {} userData.wire userData.page (present ms)

private theorem issues_readUserData_eq_nil_iff : (readUserData ms).issues = [] ↔ UserDataFits ms :=
  issues_field_eq_nil_iff issues_request_eq_nil_iff {} userData (present ms)

/-- What is wrong with the user data is wrong below its name. -/
theorem place_of_mem_readUserData {i : ShapeIssue} (h : i ∈ (readUserData ms).issues) :
    ∃ name ∈ userData.names, ∃ place, i.place = name :: place := by
  rw [readUserData, field_eq_readFrom] at h
  cases hm : userData.member? (present ms) with
  | none =>
    rw [hm] at h
    cases h
  | some m =>
    obtain ⟨name, u⟩ := m
    rw [hm] at h
    obtain ⟨i', -, rfl⟩ := List.mem_map.mp h
    exact ⟨name, (FieldNames.of_member? hm).1, i'.place, rfl⟩

/-- Where the flags are given without fault, the user data decides. -/
theorem toExcept_envelope (hpid : IsFlag getPid ms pidAsked) (hexit : IsFlag exitNow ms exitAsked) :
    (UserDataFits ms → (envelope (.object ms)).toExcept =
      .ok ⟨(readUserData ms).value, pidAsked, exitAsked⟩) ∧
    (¬ UserDataFits ms → (envelope (.object ms)).toExcept = .error (readUserData ms).issues) := by
  have henvelope : envelope (.object ms) =
      ⟨⟨(readUserData ms).value, pidAsked, exitAsked⟩, (readUserData ms).issues⟩ := by
    have happend := (List.append_nil (readUserData ms).issues).symm
    rw [envelope, show field flag false "GetPID".toList "get_pid".toList (present ms) = _ from hpid,
      show field flag false "ExitNow".toList "exit_now".toList (present ms) = _ from hexit, happend,
      happend]
    rfl
  rw [henvelope, Checked.toExcept, ← issues_readUserData_eq_nil_iff]
  exact ⟨fun h => if_pos (List.isEmpty_iff.mpr h), fun h => if_neg (mt List.isEmpty_iff.mp h)⟩

end Shape

namespace Message

/-- The bytes begin with an object that has the members. -/
def Holds (d : Bytes) (ms : Shape.Members) : Prop :=
  ∃ t rest, Utf8.decode d = .ok t ∧ Json.read (Text.trimLeft t) = .ok (.object ms, rest)

end Message

namespace Connection

open Shape (UserDataFits readUserData IsFlag)

variable {d : Bytes} {chunks : List Chunk} {env : Envelope} {ms : Shape.Members} {pidAsked exitAsked : Bool}
  {dispatcher : Dispatcher} {pid : Text} {around : Surroundings}

/-- A control request that is received is answered with the process number. -/
theorem handle_of_control (h : (receive true chunks).result = .ok env)
    (hcontrol : env.getPid = true ∨ env.exitNow = true) :
    let outcome := handle dispatcher pid around true chunks
    outcome.answer = Utf8.encode ("gosp-pid ".toList ++ pid ++ ['\n']) ∧
      outcome.exit = env.exitNow := by
  simp only [handle, h, WayBack.send_clear, List.flatten_singleton]
  cases hexit : env.exitNow with
  | true => exact ⟨rfl, rfl⟩
  | false =>
    rw [hcontrol.resolve_right (by simp [hexit])]
    exact ⟨rfl, rfl⟩

/-- Where nothing is received, nothing is answered. -/
theorem handle_of_error {e : ReceiveError} (h : (receive true chunks).result = .error e) :
    let outcome := handle dispatcher pid around true chunks
    outcome.answer = [] ∧ outcome.exit = false := by
  refine ⟨?_, exit_of_error h⟩
  simp only [handle, h]
  cases e with
  | timeout | broken => rfl
  | message f =>
    dsimp only
    split <;> rfl

/-- What is of the wrong shape is not answered, in whatever pieces it comes. -/
theorem handle_of_misshapen {pieces : List Bytes} (rest : List Chunk) {t : Text}
    {issues : List ShapeIssue} (hall : ∀ b ∈ pieces, IsPiece b)
    (ht : Utf8.decode pieces.flatten = .ok t)
    (hd : Message.decode pieces.flatten = .error (.misshapen issues)) :
    let outcome := handle dispatcher pid around true (pieces.map .data ++ rest)
    outcome.answer = [] ∧ outcome.exit = false := by
  obtain ⟨e, he⟩ := Message.exists_error_of_misshapen [] 0 (portions [] rest) ht hd ⟨_, rfl⟩
    fun b hb => (hall b hb).1
  rw [← receive_pieces hall] at he
  exact handle_of_error he

/-- **Control requests.** A message that asks for the process number or asks to exit is answered,
and takes effect, exactly if its user data is absent or a request and no beginning of it that has
come is given up. Otherwise the connection is dropped; and if the user data is at fault, that and
nothing else is said to be wrong. -/
theorem control_iff (hd : Message.Holds d ms) (hpid : IsFlag Shape.getPid ms pidAsked)
    (hexit : IsFlag Shape.exitNow ms exitAsked) (hcontrol : pidAsked = true ∨ exitAsked = true) :
    let outcome (pieces : List Bytes) (rest : List Chunk) :=
      handle dispatcher pid around true (pieces.map .data ++ rest)
    (UserDataFits ms →
      Message.decode d = .ok ⟨(readUserData ms).value, pidAsked, exitAsked⟩ ∧
        ∀ pieces rest, (∀ b ∈ pieces, IsPiece b) → pieces.flatten = d →
          ((∀ k, ¬ Message.IsLost (pieces.take k).flatten) →
            (outcome pieces rest).answer = Utf8.encode ("gosp-pid ".toList ++ pid ++ ['\n']) ∧
              (outcome pieces rest).exit = exitAsked) ∧
          ((∃ k, Message.IsLost (pieces.take k).flatten) →
            (outcome pieces rest).answer = [] ∧ (outcome pieces rest).exit = false)) ∧
    (¬ UserDataFits ms → ∃ issues, Message.decode d = .error (.misshapen issues) ∧
      (∀ i ∈ issues, ∃ name ∈ Shape.userData.names, ∃ place, i.place = name :: place) ∧
      ∀ pieces rest, (∀ b ∈ pieces, IsPiece b) → pieces.flatten = d →
        (outcome pieces rest).answer = [] ∧ (outcome pieces rest).exit = false) := by
  intro outcome
  obtain ⟨t, rest, ht, hread⟩ := hd
  have hdecode := Message.decode_of_read ht hread
  obtain ⟨hfit, hmisfit⟩ := Shape.toExcept_envelope hpid hexit
  refine ⟨fun hfits => ?_, fun hfits => ?_⟩
  · rw [hfit hfits] at hdecode
    refine ⟨hdecode, fun pieces rest hall hpieces => ⟨fun hkept => ?_, fun ⟨k, hlost⟩ => ?_⟩⟩
    · exact handle_of_control ((Message.result_receive_iff rest _ hall (hpieces ▸ hdecode)).mpr
        ⟨rfl, hkept⟩) hcontrol
    · cases hr : (receive true (pieces.map .data ++ rest)).result with
      | error e => exact handle_of_error hr
      | ok env =>
        have hiff := Message.result_receive_iff rest env hall (hpieces ▸ hdecode)
        exact absurd hlost ((hiff.mp hr).2 k)
  · rw [hmisfit hfits] at hdecode
    refine ⟨_, hdecode, fun i hi => Shape.place_of_mem_readUserData hi,
      fun pieces rest hall hpieces => ?_⟩
    subst hpieces
    exact handle_of_misshapen rest hall ht hdecode

/-- A request to exit whose user data has a port in an unusual spelling and an unknown member. -/
theorem control_spelled :
    let member (name : String) (value : Json) := (Letter.ofText name.toList, value)
    let port := member "Port" (.string (Letter.ofText " 8_0.0".toList))
    let ms := [member "ExitNow" (.int 1), member "GetPID" .null,
      member "user_data" (.object [port, member "x" (.array [])])]
    let d := Utf8.encode ("\x7b\"ExitNow\": 1, \"GetPID\": null, ".toList ++
      "\"user_data\": \x7b\"Port\": \" 8_0.0\", \"x\": []\x7d\x7d".toList)
    Message.Holds d ms ∧ IsFlag Shape.getPid ms false ∧ IsFlag Shape.exitNow ms true ∧
      UserDataFits ms ∧ Message.decode d = .ok ⟨{ port := 80 }, false, true⟩ ∧
      (handle idle ['1'] ⟨{}, []⟩ true [.data d]).answer = Utf8.encode "gosp-pid 1\n".toList ∧
      (handle idle ['1'] ⟨{}, []⟩ true [.data d]).exit = true := by
  intro member port ms d
  have hd : Message.Holds d ms := ⟨_, [], Utf8.decode_encode _, by cbv⟩
  have hpid : IsFlag Shape.getPid ms false := rfl
  have hexit : IsFlag Shape.exitNow ms true := rfl
  have hfits : UserDataFits ms := Shape.issues_readUserData_eq_nil_iff.mp (by decide +kernel)
  have hvalue : (readUserData ms).value = { port := 80 } := by decide +kernel
  obtain ⟨hdecode, hpieces⟩ := (control_iff hd hpid hexit (.inr rfl)).1 hfits
  have hkept : ∀ k, ¬ Message.IsLost ([d].take k).flatten := fun k => by
    cases k with
    | zero => exact Message.not_isLost_of_isIncomplete ⟨_, rfl⟩
    | succ k =>
      rw [List.take_succ_cons, List.take_nil, List.flatten_singleton]
      exact Message.not_isLost_of_ok hdecode
  obtain ⟨hanswered, hexited⟩ :=
    (hpieces [d] [] (by decide) (List.flatten_singleton)).1 hkept
  rw [hvalue] at hdecode
  exact ⟨hd, hpid, hexit, hfits, hdecode, hanswered, hexited⟩

/-- A request to exit whose user data is a number. -/
def burdenedRequest : Text := "\x7b\"ExitNow\": true, \"UserData\": 5\x7d".toList

/-- **A control request is refused.** A request to exit whose user data is a number is no message,
and the server goes on. -/
theorem exit_misshapen : Message.decode (Utf8.encode burdenedRequest) =
      .error (.misshapen [⟨["UserData".toList], .modelType⟩]) ∧
    (handle idle ['1'] ⟨{}, []⟩ true [.data (Utf8.encode burdenedRequest)]).exit = false := by
  have hdecode : Message.decode (Utf8.encode burdenedRequest) =
      .error (.misshapen [⟨["UserData".toList], .modelType⟩]) := by cbv
  have hall : ∀ b ∈ [Utf8.encode burdenedRequest], IsPiece b := by decide
  have hpieces : [Utf8.encode burdenedRequest].flatten = Utf8.encode burdenedRequest :=
    List.flatten_singleton
  exact ⟨hdecode, (handle_of_misshapen [] hall (hpieces ▸ Utf8.decode_encode _)
    (hpieces ▸ hdecode)).2⟩

end Connection

end ServerPages
