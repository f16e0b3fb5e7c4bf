import Mathlib.Tactic.IntervalCases
import PeerRelay.Json.Text
import PeerRelay.Json.Value
import PeerRelay.Proofs.Outcome

/-!
# Quoted texts are read back

A character inside quotes is written as itself, as an escape with a letter, or as an escape by
number; the reader makes one piece of it (`exists_piece`), and the pieces make the text again
(`read_quoted`).
-/

namespace PeerRelay.Json.QuotedText

/-- A piece stands for a character: put together, it gives the character and nothing else. -/
def Piece.Gives (p : Piece) (c : Char) : Prop :=
  ∀ ps, assemble none (p :: ps) = (c :: ·) <$> assemble none ps

theorem gives_char (c : Char) : (Piece.char c).Gives c :=
  fun _ ↦ rfl

/-- A unit below the surrogates is its character. -/
theorem gives_unit {c : Char} (h : c.toNat < 0xD800) : (Piece.unit c.toNat).Gives c := by
  intro ps
  have hleading : isLeading c.toNat = false := by
    rw [isLeading, decide_eq_false (by omega), Bool.false_and]
  have htrailing : isTrailing c.toNat = false := by
    rw [isTrailing, decide_eq_false (by omega), Bool.false_and]
  rw [assemble.eq_def]
  simp only [htrailing, hleading, Char.ofNat_toNat]
  rfl

/-- An escape by number has four digits, which denote the number. -/
theorem exists_hex4? {n : Nat} (h : n < 0x20) :
    ∃ a b c d, List.replicate (4 - (Nat.toDigits 16 n).length) '0' ++ Nat.toDigits 16 n =
      [a, b, c, d] ∧ hex4? a b c d = some n := by
  interval_cases n <;> exact ⟨_, _, _, _, rfl, rfl⟩

/-- A character that was written inside quotes is read as one piece, which gives it again. -/
theorem exists_piece (c : Char) : ∃ p : Piece, p.Gives c ∧
    ∀ rest, scan (quotedChar c ++ rest) = (scan rest).push p := by
  unfold quotedChar
  split
  case h_8 hquote hslash _ _ _ _ _ =>
    -- no letter stands for the character: it is escaped by number if it is a control
    split
    · rename_i hcontrol
      obtain ⟨x, y, z, u, hdigits, hhex⟩ := exists_hex4? hcontrol
      refine ⟨.unit c.toNat, gives_unit (by omega), fun rest ↦ ?_⟩
      show scan ('\\' :: 'u' :: (_ ++ rest)) = _
      rw [hdigits]
      simp only [List.cons_append, List.nil_append]
      rw [scan, hhex]
    · rename_i hcontrol
      refine ⟨.char c, gives_char c, fun rest ↦ ?_⟩
      rw [List.singleton_append, scan, if_neg hcontrol]
      all_goals simp_all
  all_goals exact ⟨.char _, gives_char _, fun _ ↦ rfl⟩

/-- A quoted text is taken apart to its closing quote. -/
theorem exists_scan (cs rest : List Char) :
    ∃ ps, scan (cs.flatMap quotedChar ++ '"' :: rest) = ⟨ps, .ok rest⟩ ∧
      assemble none ps = .ok cs := by
  induction cs with
  | nil => exact ⟨[], rfl, rfl⟩
  | cons c cs ih =>
    obtain ⟨ps, hscan, hassemble⟩ := ih
    obtain ⟨p, hgives, hp⟩ := exists_piece c
    refine ⟨p :: ps, ?_, ?_⟩
    · rw [List.flatMap_cons, List.append_assoc, hp, hscan]
      rfl
    · rw [hgives, hassemble]
      rfl

/-- A quoted text is read back. -/
theorem read_quoted (s : String) (rest : List Char) :
    read (s.toList.flatMap quotedChar ++ '"' :: rest) = .ok (.ok s, rest) := by
  obtain ⟨ps, hscan, hassemble⟩ := exists_scan s.toList rest
  rw [read, hscan]
  show Except.ok ((assemble none ps).map String.ofList, rest) = _
  rw [hassemble]
  show Except.ok (Except.ok (String.ofList s.toList), rest) = _
  rw [String.ofList_toList]

end PeerRelay.Json.QuotedText
