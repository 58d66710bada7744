import AgentSession.Text.Utf8
/-!
# Cutting bytes into pieces

`Bytes.cut` cuts bytes into pieces of a given size, wherever that falls. Nothing is lost
(`Bytes.flatten_cut`), and no piece is empty or too long (`Bytes.length_of_mem_cut`).
-/

namespace AgentSession.Bytes

/-- Cuts bytes into pieces of `size` bytes, but of one byte where `size` is zero. The last piece
may be shorter. -/
def cut (size : Nat) (bytes : Bytes) : List Bytes :=
  match bytes with
  | [] => []
  | b :: rest => (b :: rest.take (size - 1)) :: cut size (rest.drop (size - 1))
termination_by bytes.length
decreasing_by simp only [List.length_drop, List.length_cons]; omega

theorem flatten_cut (size : Nat) (bytes : Bytes) : (cut size bytes).flatten = bytes := by
  fun_induction cut size bytes with
  | case1 => rfl
  | case2 b rest ih => simp [ih]

theorem length_of_mem_cut {size : Nat} {bytes piece : Bytes} (h : piece ∈ cut size bytes) :
    0 < piece.length ∧ piece.length ≤ max size 1 := by
  fun_induction cut size bytes with
  | case1 => simp at h
  | case2 b rest ih =>
    rcases List.mem_cons.1 h with rfl | h
    · simp only [List.length_cons, List.length_take]; omega
    · exact ih h

end AgentSession.Bytes
