import ServerPages.Page.Script
import ServerPages.Proofs.Request.Pieces

/-!
# Asking the server to exit

A connection that asks the server to exit is answered first, and only then is the server told to
end. So the request takes effect exactly if it is received and its answer is written and flushed
(`Connection.exit_iff`); a client that has hung up by then has asked in vain.
-/

namespace ServerPages

namespace Connection

open Message (IsLost)

variable {d : Dispatcher} {pid : Text} {around : Surroundings} {patient : Bool}
  {chunks : List Chunk} {back : WayBack} {env : Envelope}

/-- An answer in one part is sent if that is written and flushed; closing does not matter. -/
theorem send_refusal_eq_none_iff (part : Bytes) :
    (back.send [part]).refusal = none ↔ back.write 0 = none ∧ back.flush = none := by
  rw [WayBack.send, WayBack.writeParts]
  cases hw : back.write 0 with
  | none => exact ⟨fun h => ⟨rfl, h⟩, fun h => h.2⟩
  | some m =>
    exact iff_of_false (Option.some_ne_none m) fun h => Option.some_ne_none m h.1

/-- Where nothing is received, the server is not told to end. -/
theorem exit_of_error {e : ReceiveError} (h : (receive patient chunks).result = .error e) :
    (handle d pid around patient chunks back).exit = false := by
  rw [handle, h]
  cases e with
  | timeout | broken => rfl
  | message f =>
    dsimp only
    split <;> rfl

/-- Where a request to exit is received, the server is told to end if the answer is sent. -/
theorem exit_of_received (h : (receive patient chunks).result = .ok env)
    (hexit : env.exitNow = true) :
    (handle d pid around patient chunks back).exit = true ↔
      (back.send [processAnswer pid]).refusal = none := by
  rw [handle, h]
  dsimp only
  rw [if_pos hexit]
  cases (back.send [processAnswer pid]).refusal with
  | none => exact iff_of_true rfl rfl
  | some m => exact iff_of_false nofun nofun

/-- **Asking to exit.** A request to exit, in whatever pieces it comes and whatever is refused on
the way back, makes the server end exactly if no beginning of it that has come is given up and its
answer is written and flushed. -/
theorem exit_iff {pieces : List Bytes} (rest : List Chunk) (hall : ∀ b ∈ pieces, IsPiece b)
    (hd : Message.decode pieces.flatten = .ok env) (hexit : env.exitNow = true) :
    (handle d pid around true (pieces.map .data ++ rest) back).exit = true ↔
      (∀ k, ¬ IsLost (pieces.take k).flatten) ∧ back.write 0 = none ∧ back.flush = none := by
  have hresult : ∀ env', (receive true (pieces.map .data ++ rest)).result = .ok env' ↔
      env' = env ∧ ∀ k, ¬ IsLost (pieces.take k).flatten := fun env' =>
    Message.result_receive_iff rest env' hall hd
  by_cases hlost : ∀ k, ¬ IsLost (pieces.take k).flatten
  · rw [exit_of_received ((hresult env).mpr ⟨rfl, hlost⟩) hexit, send_refusal_eq_none_iff]
    exact ⟨fun h => ⟨hlost, h⟩, fun h => h.2⟩
  · cases hr : (receive true (pieces.map .data ++ rest)).result with
    | ok env' => exact absurd ((hresult env').mp hr).2 hlost
    | error e =>
      rw [exit_of_error hr]
      exact iff_of_false nofun fun h => hlost h.1

/-! ### A request to exit -/

/-- A request to exit. -/
def exitRequest : Text := "\x7b\"ExitNow\": true\x7d".toList

theorem decode_exitRequest : Message.decode (Utf8.encode exitRequest) = .ok { exitNow := true } :=
  Message.decode_of_read (t := exitRequest) (Utf8.decode_encode _)
    (Json.read_member "ExitNow".toList " true\x7d".toList (by decide) rfl)

/-- A server with a page that does nothing. -/
def idle : Dispatcher := { page := Generator.ofScript [] }

/-- A way back that cannot be flushed, because the client has hung up. -/
def hungUp : WayBack := { flush := some "[Errno 32] Broken pipe".toList }

/-- A request to exit that comes in one piece takes effect, also if the way back cannot be
closed. -/
theorem exit_exitRequest :
    Message.decode [Utf8.encode exitRequest].flatten = .ok { exitNow := true } ∧
      (handle idle ['1'] ⟨{}, []⟩ true [.data (Utf8.encode exitRequest)]
        { close := some "[Errno 32] Broken pipe".toList }).exit = true := by
  have hd : Message.decode [Utf8.encode exitRequest].flatten = .ok { exitNow := true } := by
    rw [List.flatten_singleton, decode_exitRequest]
  have hall : ∀ b ∈ [Utf8.encode exitRequest], IsPiece b := by decide
  have hlost : ∀ k, ¬ Message.IsLost ([Utf8.encode exitRequest].take k).flatten := fun k => by
    cases k with
    | zero => exact Message.not_isLost_of_isIncomplete ⟨_, rfl⟩
    | succ k =>
      rw [List.take_succ_cons, List.take_nil]
      exact Message.not_isLost_of_ok hd
  exact ⟨hd, (exit_iff [] hall hd rfl).mpr ⟨hlost, rfl, rfl⟩⟩

/-- **A request to exit is lost.** If the client has hung up before it is answered, the server goes
on. -/
theorem exit_hungUp : Message.decode (Utf8.encode exitRequest) = .ok { exitNow := true } ∧
    (handle idle ['1'] ⟨{}, []⟩ true [.data (Utf8.encode exitRequest)] hungUp).exit = false := by
  have hreceived : (receive true [.data (Utf8.encode exitRequest)]).result =
      .ok { exitNow := true } := by
    rw [receive_whole (by decide) decode_exitRequest]
  refine ⟨decode_exitRequest, Bool.eq_false_iff.mpr fun h => ?_⟩
  cases (exit_of_received hreceived rfl).mp h

end Connection

end ServerPages
