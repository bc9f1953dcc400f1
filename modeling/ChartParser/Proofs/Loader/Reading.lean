import ChartParser.Loader.Stream
import ChartParser.Proofs.Text.Encoding

/-!
# Reading byte by byte

The bytes of a line become pending one by one until its line feed ends it; then
the line is read if it is text, and stops the reading if it is not. So reading a
stream goes through the bytes that the stream delivers, wherever they are cut.
-/

namespace ChartParser

open Text

/-- An empty line adds nothing. -/
theorem Loading.readLine_empty (loading : Loading) : loading.readLine "" = loading :=
  rfl

namespace Reading

/-- A line that is text is read as that text. -/
theorem readLine_bytes (reading : Reading) (text : String) :
    reading.readLine (bytes text).toArray =
      .ok ⟨reading.loading.readLine text, reading.ended + 1, #[]⟩ := by
  rw [readLine, fromUTF8?_eq_some_iff.mpr rfl]

/-- A line that is not text stops the reading. -/
theorem readLine_of_notText (reading : Reading) {line : List UInt8}
    (notText : ∀ text, line ≠ bytes text) :
    reading.readLine line.toArray = .error (reading.stop Reading.notText) := by
  rw [readLine, fromUTF8?_eq_none_iff.mpr notText]

/-- The pending bytes lose a carriage return at their end. -/
theorem pendingLine_eq (loading : Loading) (ended : Nat) (line : List UInt8) :
    pendingLine ⟨loading, ended, line.toArray⟩ = (dropFinal 0x0D line).toArray := by
  rw [pendingLine, dropFinal]
  simp only [List.back?_toArray, List.pop_toArray]
  split <;> rfl

/-- Bytes without a line feed become pending. -/
theorem foldlM_take_of_not_mem {line : List UInt8} (absent : 0x0A ∉ line) (reading : Reading) :
    line.foldlM take reading =
      .ok { reading with pending := reading.pending ++ line.toArray } := by
  induction line generalizing reading with
  | nil => simp; rfl
  | cons byte later inductionHypothesis =>
      rw [List.mem_cons, not_or] at absent
      rw [List.foldlM_cons, take, if_neg (Ne.symm absent.1)]
      refine (inductionHypothesis absent.2 _).trans ?_
      simp

/-- A line feed ends the line. -/
theorem foldlM_take_line {line : List UInt8} (absent : 0x0A ∉ line) (loading : Loading)
    (ended : Nat) (later : List UInt8) :
    (line ++ 0x0A :: later).foldlM take ⟨loading, ended, #[]⟩ =
      readLine ⟨loading, ended, line.toArray⟩ (dropFinal 0x0D line).toArray >>=
        fun next => later.foldlM take next := by
  rw [List.foldlM_append, foldlM_take_of_not_mem absent]
  change (0x0A :: later).foldlM take ⟨loading, ended, #[] ++ line.toArray⟩ = _
  rw [List.foldlM_cons, take, if_pos rfl, Array.empty_append, pendingLine_eq]

/-- Ended lines of text are read one after the other. -/
theorem foldlM_take_lines {lines : List String} (absent : ∀ line ∈ lines, 0x0A ∉ bytes line)
    (loading : Loading) (ended : Nat) (later : List UInt8) :
    (joined 0x0A (lines.map bytes) ++ later).foldlM take ⟨loading, ended, #[]⟩ =
      later.foldlM take ⟨loading.readEnded lines, ended + lines.length, #[]⟩ := by
  induction lines generalizing loading ended with
  | nil => rfl
  | cons line lines inductionHypothesis =>
      rw [List.forall_mem_cons] at absent
      rw [List.map_cons, joined_cons, List.append_assoc, List.cons_append,
        foldlM_take_line absent.1, dropFinal_bytes, readLine_bytes]
      refine (inductionHypothesis absent.2 _ _).trans ?_
      rw [List.length_cons, Nat.add_assoc, Nat.add_comm 1]
      rfl

/-- A rest that is text is read like a line. -/
theorem finish_bytes (loading : Loading) (ended : Nat) (last : String) :
    finish ⟨loading, ended, (bytes last).toArray⟩ = .ok (loading.readLine last) := by
  by_cases empty : last = ""
  · subst empty
    exact congrArg Except.ok loading.readLine_empty.symm
  · have nonempty : bytes last ≠ [] := bytes_injective.ne empty
    rw [finish, List.isEmpty_toArray, if_neg (by simpa using nonempty), readLine_bytes]
    rfl

/-- A rest that is not text stops the reading. -/
theorem finish_of_notText (loading : Loading) (ended : Nat) {rest : List UInt8}
    (notText : ∀ text, rest ≠ bytes text) :
    finish ⟨loading, ended, rest.toArray⟩ = .error ⟨loading, ended + 1, Reading.notText⟩ := by
  have nonempty : rest ≠ [] := notText ""
  rw [finish, List.isEmpty_toArray, if_neg (by simpa using nonempty), readLine_of_notText _ notText]
  rfl

/-- Meet the end of a stream, or the fault that keeps it from its end. -/
def close (reading : Reading) : Option Fault → Except Stopped Loading
  | none => reading.finish
  | some fault => .error (reading.stop fault)

/-- Reading goes through the bytes that are delivered, wherever they are cut. -/
theorem foldlM_accept (reading : Reading) (deliveries : List Delivery) :
    (deliveries.foldlM accept reading >>= finish) =
      ((Delivered.ofDeliveries deliveries).bytes.foldlM take reading >>= fun next =>
        next.close (Delivered.ofDeliveries deliveries).fault) := by
  induction deliveries generalizing reading with
  | nil => rfl
  | cons delivery later inductionHypothesis =>
      rw [List.foldlM_cons, bind_assoc]
      simp only [inductionHypothesis]
      cases delivery with
      | data bytes =>
          simp only [Delivered.ofDeliveries, List.foldlM_append, bind_assoc]
          rfl
      | failure fault =>
          by_cases interrupted : fault.kind = .interrupted
          · simp only [Delivered.ofDeliveries, accept, if_pos interrupted]
            rfl
          · simp only [Delivered.ofDeliveries, accept, if_neg interrupted]
            rfl

end Reading

/-- Reading a stream goes through the bytes that it delivers and meets what keeps it from its
end. -/
theorem Loading.readStream_eq (loading : Loading) (deliveries : List Delivery) :
    loading.readStream deliveries =
      ((Delivered.ofDeliveries deliveries).bytes.foldlM Reading.take (Reading.start loading) >>=
        fun reading => reading.close (Delivered.ofDeliveries deliveries).fault) :=
  Reading.foldlM_accept (Reading.start loading) deliveries

end ChartParser
