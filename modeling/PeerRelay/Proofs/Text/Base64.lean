import Mathlib.Tactic.IntervalCases
import PeerRelay.Proofs.Outcome
import PeerRelay.Text.Base64

/-!
# Base64 is read back

Decoding the text of some bytes gives the bytes (`decode_encode`). A symbol is one byte of the text,
which has the value that the symbol was chosen for (`valueAt_symbolByte`), so that each group is
taken apart into the numbers from which it was put together. The induction is on the bytes, three at
a time; the last group is the one that may be padded.
-/

namespace PeerRelay.Text.Base64

/-! ### Symbols -/

/-- The byte of a symbol. -/
def symbolByte (value : Nat) : UInt8 :=
  UInt8.ofNat (symbol value).toNat

section Symbol

variable {n : Nat} (h : n < 64)

include h

/-- A symbol is one byte of a text. -/
theorem utf8_symbol : String.utf8EncodeChar (symbol n) = [symbolByte n] := by
  interval_cases n <;> decide

theorem symbolByte_ne_pad : symbolByte n ≠ pad := by
  interval_cases n <;> decide

theorem value?_symbolByte : value? (symbolByte n) = some n := by
  interval_cases n <;> decide

theorem valueAt_symbolByte (offset : Nat) : valueAt (symbolByte n) offset = .ok n := by
  rw [valueAt, value?_symbolByte h]

end Symbol

theorem utf8_pad : String.utf8EncodeChar '=' = [pad] := by
  decide

/-- The bytes of the text of some bytes. -/
def textBytes (bytes : List UInt8) : List UInt8 :=
  (symbols bytes).flatMap String.utf8EncodeChar

theorem utf8_encode (bytes : List UInt8) : utf8 (encode bytes) = textBytes bytes := by
  rw [utf8, encode, String.toList_ofList, textBytes]

/-! ### Groups -/

section Values

variable {x y z u : Nat}

/-- A group is split where its padding begins. -/
theorem split_symbols {values : List Nat} (hvalues : ∀ n ∈ values, n < 64) (count : Nat) :
    (values.map symbolByte ++ List.replicate count pad).takeWhile (· != pad) =
        values.map symbolByte ∧
      (values.map symbolByte ++ List.replicate count pad).dropWhile (· != pad) =
        List.replicate count pad := by
  have hsymbols : ∀ byte ∈ values.map symbolByte, (byte != pad) = true := by
    intro byte hbyte
    obtain ⟨n, hn, rfl⟩ := List.mem_map.1 hbyte
    exact bne_iff_ne.2 (symbolByte_ne_pad (hvalues n hn))
  rw [List.takeWhile_append_of_pos hsymbols, List.dropWhile_append_of_pos hsymbols]
  cases count with
  | zero => exact ⟨List.append_nil _, rfl⟩
  | succ count => exact ⟨List.append_nil _, rfl⟩

theorem valuesFrom_symbols {values : List Nat} (hvalues : ∀ n ∈ values, n < 64) (offset : Nat) :
    valuesFrom offset (values.map symbolByte) = .ok values := by
  induction values generalizing offset with
  | nil => rfl
  | cons n rest ih =>
    rw [List.map_cons, valuesFrom, valueAt_symbolByte (hvalues n List.mem_cons_self),
      ih fun m hm ↦ hvalues m (List.mem_cons_of_mem _ hm)]
    rfl

theorem decodeLast_two (hx : x < 64) (hy : y < 64) (hzero : y % 16 = 0) (offset : Nat) :
    decodeLast offset [symbolByte x, symbolByte y, pad, pad] =
      .ok [UInt8.ofNat (x * 4 + y / 16)] := by
  have hvalues : ∀ n ∈ [x, y], n < 64 := by simp [hx, hy]
  obtain ⟨hbody, hfilling⟩ := split_symbols hvalues 2
  have hread := valuesFrom_symbols hvalues offset
  simp only [List.map_cons, List.map_nil, List.cons_append, List.nil_append,
    List.replicate] at hbody hfilling hread
  simp [decodeLast, hbody, hfilling, hread, hzero, ok_bind]
  rfl

theorem decodeLast_three (hx : x < 64) (hy : y < 64) (hz : z < 64) (hzero : z % 4 = 0)
    (offset : Nat) : decodeLast offset [symbolByte x, symbolByte y, symbolByte z, pad] =
      .ok [UInt8.ofNat (x * 4 + y / 16), UInt8.ofNat (y % 16 * 16 + z / 4)] := by
  have hvalues : ∀ n ∈ [x, y, z], n < 64 := by simp [hx, hy, hz]
  obtain ⟨hbody, hfilling⟩ := split_symbols hvalues 1
  have hread := valuesFrom_symbols hvalues offset
  simp only [List.map_cons, List.map_nil, List.cons_append, List.nil_append,
    List.replicate] at hbody hfilling hread
  simp [decodeLast, hbody, hfilling, hread, hzero, ok_bind]
  rfl

theorem decodeLast_four (hx : x < 64) (hy : y < 64) (hz : z < 64) (hu : u < 64) (offset : Nat) :
    decodeLast offset [symbolByte x, symbolByte y, symbolByte z, symbolByte u] =
      .ok [UInt8.ofNat (x * 4 + y / 16), UInt8.ofNat (y % 16 * 16 + z / 4),
        UInt8.ofNat (z % 4 * 64 + u)] := by
  have hvalues : ∀ n ∈ [x, y, z, u], n < 64 := by simp [hx, hy, hz, hu]
  obtain ⟨hbody, hfilling⟩ := split_symbols hvalues 0
  have hread := valuesFrom_symbols hvalues offset
  simp only [List.map_cons, List.map_nil, List.cons_append, List.nil_append,
    List.replicate] at hbody hfilling hread
  simp [decodeLast, hbody, hfilling, hread, ok_bind]
  rfl

/-- A group of four symbols in front of others is decoded by itself. -/
theorem decodeGroups_four (hx : x < 64) (hy : y < 64) (hz : z < 64) (hu : u < 64) {offset : Nat}
    {rest : List UInt8} {bytes : List UInt8} (hrest : rest ≠ [])
    (h : decodeGroups (offset + 4) rest = .ok bytes) :
    decodeGroups offset (symbolByte x :: symbolByte y :: symbolByte z :: symbolByte u :: rest) =
      .ok (UInt8.ofNat (x * 4 + y / 16) :: UInt8.ofNat (y % 16 * 16 + z / 4) ::
        UInt8.ofNat (z % 4 * 64 + u) :: bytes) := by
  obtain ⟨e, rest, rfl⟩ := List.exists_cons_of_ne_nil hrest
  rw [decodeGroups, valueAt_symbolByte hx, valueAt_symbolByte hy, valueAt_symbolByte hz,
    valueAt_symbolByte hu]
  simp only [ok_bind, h]
  rfl

end Values

/-! ### Texts -/

/-- A byte from its bits. -/
theorem ofNat_eq {a : UInt8} {n : Nat} (h : n = a.toNat) : UInt8.ofNat n = a := by
  rw [h, UInt8.ofNat_toNat]

section Groups

variable (a b c : UInt8) (rest : List UInt8)

theorem textBytes_one : textBytes [a] =
    [symbolByte (a.toNat * 16 / 64), symbolByte (a.toNat * 16 % 64), pad, pad] := by
  have ha := a.toNat_lt
  simp [textBytes, symbols, utf8_pad, utf8_symbol (n := a.toNat * 16 / 64) (by omega),
    utf8_symbol (n := a.toNat * 16 % 64) (by omega)]

theorem textBytes_two : textBytes [a, b] =
    [symbolByte ((a.toNat * 256 + b.toNat) * 4 / 4096),
      symbolByte ((a.toNat * 256 + b.toNat) * 4 / 64 % 64),
      symbolByte ((a.toNat * 256 + b.toNat) * 4 % 64), pad] := by
  have ha := a.toNat_lt
  have hb := b.toNat_lt
  simp [textBytes, symbols, utf8_pad,
    utf8_symbol (n := (a.toNat * 256 + b.toNat) * 4 / 4096) (by omega),
    utf8_symbol (n := (a.toNat * 256 + b.toNat) * 4 / 64 % 64) (by omega),
    utf8_symbol (n := (a.toNat * 256 + b.toNat) * 4 % 64) (by omega)]

theorem textBytes_three : textBytes (a :: b :: c :: rest) =
    symbolByte (((a.toNat * 256 + b.toNat) * 256 + c.toNat) / 262144) ::
      symbolByte (((a.toNat * 256 + b.toNat) * 256 + c.toNat) / 4096 % 64) ::
      symbolByte (((a.toNat * 256 + b.toNat) * 256 + c.toNat) / 64 % 64) ::
      symbolByte (((a.toNat * 256 + b.toNat) * 256 + c.toNat) % 64) :: textBytes rest := by
  have ha := a.toNat_lt
  have hb := b.toNat_lt
  have hc := c.toNat_lt
  simp [textBytes, symbols,
    utf8_symbol (n := ((a.toNat * 256 + b.toNat) * 256 + c.toNat) / 262144) (by omega),
    utf8_symbol (n := ((a.toNat * 256 + b.toNat) * 256 + c.toNat) / 4096 % 64) (by omega),
    utf8_symbol (n := ((a.toNat * 256 + b.toNat) * 256 + c.toNat) / 64 % 64) (by omega),
    utf8_symbol (n := ((a.toNat * 256 + b.toNat) * 256 + c.toNat) % 64) (by omega)]

end Groups

/-- The bytes of a text come in groups of four. -/
theorem length_textBytes (bytes : List UInt8) : (textBytes bytes).length % 4 = 0 := by
  fun_induction symbols bytes with
  | case1 => rfl
  | case2 a => simp [textBytes_one]
  | case3 a b => simp [textBytes_two]
  | case4 a b c rest n ih =>
    rw [textBytes_three]
    simp only [List.length_cons]
    omega

/-- Nothing is encoded as an empty text but nothing. -/
theorem eq_nil_of_textBytes {bytes : List UInt8} (h : textBytes bytes = [])
    (hdecoded : decodeGroups 0 (textBytes bytes) = .ok bytes) : bytes = [] := by
  rw [h] at hdecoded
  exact (Except.ok.inj hdecoded).symm

theorem decodeGroups_textBytes (bytes : List UInt8) (offset : Nat) :
    decodeGroups offset (textBytes bytes) = .ok bytes := by
  fun_induction symbols bytes generalizing offset with
  | case1 => rfl
  | case2 a =>
    have ha := a.toNat_lt
    rw [textBytes_one]
    refine (decodeLast_two (by omega) (by omega) (by omega) offset).trans ?_
    rw [ofNat_eq (a := a) (by omega)]
  | case3 a b =>
    have ha := a.toNat_lt
    have hb := b.toNat_lt
    rw [textBytes_two]
    refine (decodeLast_three (by omega) (by omega) (by omega) (by omega) offset).trans ?_
    rw [ofNat_eq (a := a) (by omega), ofNat_eq (a := b) (by omega)]
  | case4 a b c rest n ih =>
    have ha := a.toNat_lt
    have hb := b.toNat_lt
    have hc := c.toNat_lt
    rw [textBytes_three]
    by_cases hrest : textBytes rest = []
    · obtain rfl := eq_nil_of_textBytes hrest (ih 0)
      refine (decodeLast_four (by omega) (by omega) (by omega) (by omega) offset).trans ?_
      rw [ofNat_eq (a := a) (by omega), ofNat_eq (a := b) (by omega), ofNat_eq (a := c) (by omega)]
    · rw [decodeGroups_four (by omega) (by omega) (by omega) (by omega) hrest (ih (offset + 4)),
        ofNat_eq (a := a) (by omega), ofNat_eq (a := b) (by omega), ofNat_eq (a := c) (by omega)]

/-- **The text of some bytes is decoded to the bytes.** -/
theorem decode_encode (bytes : List UInt8) : decode (encode bytes) = .ok bytes := by
  have hlength := length_textBytes bytes
  have hdecoded := decodeGroups_textBytes bytes 0
  unfold decode
  rw [utf8_encode]
  dsimp only
  split
  · rw [if_neg (fun h ↦ by omega), hdecoded]
  · rename_i hnone
    rw [eq_nil_of_textBytes (List.getLast?_eq_none_iff.1 hnone) hdecoded]

end PeerRelay.Text.Base64
