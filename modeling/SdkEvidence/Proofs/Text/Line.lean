import SdkEvidence.Proofs.Text.Pieces
import SdkEvidence.Text.Line

/-!
# Lines of a text

A text starts with a line where a line feed stands behind it (`lines_append_cons`), with a carriage
return before that or without one.
-/
namespace SdkEvidence.Text

variable {line : List Char}

theorem lines_append_cons (h : '\n' ∉ line) (rest : List Char) :
    lines (line ++ '\n' :: rest) = dropCarriageReturn line :: lines rest := by
  rw [lines, List.splitOn_append_cons_self, splitOn_of_notMem h, lines]
  obtain ⟨piece, more, hsplit⟩ := List.exists_cons_of_ne_nil (List.splitOn_ne_nil '\n' rest)
  rw [hsplit]
  rfl

theorem dropCarriageReturn_of_notMem (h : '\r' ∉ line) : dropCarriageReturn line = line := by
  rw [dropCarriageReturn, if_neg]
  exact fun hlast => h (List.mem_of_getLast? hlast)

theorem dropCarriageReturn_concat (line : List Char) :
    dropCarriageReturn (line ++ ['\r']) = line := by
  simp [dropCarriageReturn]

end SdkEvidence.Text
