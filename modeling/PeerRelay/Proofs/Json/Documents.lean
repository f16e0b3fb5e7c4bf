import PeerRelay.Json.Decode
import PeerRelay.Proofs.Json.Quoted
import PeerRelay.Proofs.Text.Digits

/-!
# Written documents are read back

The tree of a document is what a reader gets of its text, in any layout that puts nothing but white
space between the parts (`reads_written`). So decoding the text of a document is decoding its tree
(`decodeText_write`).

The induction is on the fuel of the reader, which is used up by nested calls: two for each character
suffice, since an item or a field is entered through one call that takes no character.
-/

namespace PeerRelay.Json

/-! ### Numbers -/

/-- The lexeme of an integer. -/
def Number.ofInt (n : Int) : Number.Lexeme :=
  ⟨decide (n < 0), Nat.toDigits 10 n.natAbs, [], none⟩

/-- What follows a number does not go on with it. -/
def Ends (rest : List Char) : Prop :=
  ∀ c ∈ rest.head?, Text.isDigit c = false ∧ c ≠ '.' ∧ c ≠ 'e' ∧ c ≠ 'E'

theorem ends_nil : Ends [] := by
  intro c hc
  cases hc

theorem ends_cons {c : Char} {rest : List Char}
    (h : Text.isDigit c = false ∧ c ≠ '.' ∧ c ≠ 'e' ∧ c ≠ 'E') : Ends (c :: rest) := by
  intro d hd
  cases hd
  exact h

namespace Number

variable {rest : List Char}

theorem digits_append {ds : List Char} (hds : ∀ c ∈ ds, Text.isDigit c = true) (h : Ends rest) :
    (ds ++ rest).takeWhile Text.isDigit = ds ∧ (ds ++ rest).dropWhile Text.isDigit = rest := by
  rw [List.takeWhile_append_of_pos hds, List.dropWhile_append_of_pos hds]
  cases rest with
  | nil => exact ⟨List.append_nil _, rfl⟩
  | cons c rest =>
    have hc := (h c rfl).1
    rw [List.takeWhile_cons_of_neg (by simp [hc]), List.dropWhile_cons_of_neg (by simp [hc])]
    exact ⟨List.append_nil _, rfl⟩

/-- A number above zero is written without a leading zero. -/
theorem toDigits_head {n : Nat} (h : 0 < n) : (Nat.toDigits 10 n).head? ≠ some '0' := by
  induction n using Nat.strongRecOn with
  | ind n ih =>
    rw [Nat.toDigits_eq_if (by decide)]
    split
    · rename_i hlt
      interval_cases n <;> decide
    · rw [List.head?_append_of_ne_nil _ Nat.toDigits_ne_nil]
      exact ih (n / 10) (by omega) (by omega)

theorem wholeDigits_toDigits (n : Nat) (h : Ends rest) :
    wholeDigits (Nat.toDigits 10 n ++ rest) = .ok (Nat.toDigits 10 n, rest) := by
  rcases Nat.eq_zero_or_pos n with rfl | hpos
  · rw [Nat.toDigits_zero]
    show (if (rest.head?.map Text.isDigit).getD false then _ else _) = _
    cases hrest : rest.head? with
    | none => rfl
    | some c =>
      rw [show ((some c).map Text.isDigit).getD false = Text.isDigit c from rfl, (h c hrest).1]
      rfl
  · have hhead := toDigits_head hpos
    have hdigits : ∀ c ∈ Nat.toDigits 10 n, Text.isDigit c = true :=
      fun _ ↦ Text.isDigit_of_mem_toDigits
    obtain ⟨htake, hdrop⟩ := digits_append hdigits h
    obtain ⟨d, ds, hds⟩ := List.exists_cons_of_ne_nil (Nat.toDigits_ne_nil (n := n) (b := 10))
    rw [hds] at hhead htake hdrop ⊢
    unfold wholeDigits
    split
    · simp_all
    · rw [someDigits]
      rw [htake, hdrop]

theorem fractionDigits_of_ends (h : Ends rest) : fractionDigits rest = .ok ([], rest) := by
  unfold fractionDigits
  split
  · exact absurd rfl (h '.' rfl).2.1
  · rfl

theorem exponentPart_of_ends (h : Ends rest) : exponentPart rest = .ok (none, rest) := by
  unfold exponentPart
  split
  all_goals first
    | rfl
    | exact absurd rfl (h 'e' rfl).2.2.1
    | exact absurd rfl (h 'E' rfl).2.2.2

theorem lexeme_minus (n : Nat) (h : Ends rest) :
    lexeme ('-' :: (Nat.toDigits 10 n ++ rest)) =
      .ok (⟨true, Nat.toDigits 10 n, [], none⟩, rest) := by
  simp only [lexeme, wholeDigits_toDigits n h, ok_bind, fractionDigits_of_ends h,
    exponentPart_of_ends h]
  rfl

theorem lexeme_toDigits (n : Nat) (h : Ends rest) :
    lexeme (Nat.toDigits 10 n ++ rest) = .ok (⟨false, Nat.toDigits 10 n, [], none⟩, rest) := by
  have hminus : ∀ ds, Nat.toDigits 10 n ++ rest ≠ '-' :: ds := by
    intro ds hds
    obtain ⟨d, ds', hcons⟩ := List.exists_cons_of_ne_nil (Nat.toDigits_ne_nil (n := n) (b := 10))
    rw [hcons] at hds
    have hdigit := Text.isDigit_of_mem_toDigits (n := n) (c := d) (by simp [hcons])
    obtain rfl : d = '-' := (List.cons.inj hds).1
    exact absurd hdigit (by decide)
  unfold lexeme
  split
  rename_i hsign
  split at hsign
  · rename_i ds hds
    exact absurd hds (hminus ds)
  · cases hsign
    simp only [wholeDigits_toDigits n h, ok_bind, fractionDigits_of_ends h, exponentPart_of_ends h]
    rfl

/-- An integer is taken as it was written. -/
theorem lexeme_toString (n : Int) (h : Ends rest) :
    lexeme ((toString n).toList ++ rest) = .ok (ofInt n, rest) := by
  cases n with
  | ofNat n =>
    have htext : (toString (Int.ofNat n)).toList = Nat.toDigits 10 n := Nat.toList_repr
    have hsign : decide (Int.ofNat n < 0) = false :=
      decide_eq_false (Int.not_lt.2 (Int.natCast_nonneg n))
    rw [htext, lexeme_toDigits n h, ofInt, hsign]
    rfl
  | negSucc n =>
    have htext : (toString (Int.negSucc n)).toList = '-' :: Nat.toDigits 10 (n + 1) := by
      show ("-" ++ (n + 1).repr).toList = _
      rw [String.toList_append, Nat.toList_repr]
      rfl
    rw [htext, List.cons_append, lexeme_minus (n + 1) h, ofInt, decide_eq_true (by omega)]
    rfl

end Number

/-! ### White space -/

theorem dropSpace_append {spaces : List Char} (h : ∀ c ∈ spaces, isSpace c = true)
    (cs : List Char) : dropSpace (spaces ++ cs) = dropSpace cs := by
  unfold dropSpace
  rw [List.dropWhile_append_of_pos h]

theorem dropSpace_cons {c : Char} (h : isSpace c = false) (cs : List Char) :
    dropSpace (c :: cs) = c :: cs :=
  List.dropWhile_cons_of_neg (by simp [h])

/-- White space in front of a document is passed over. -/
theorem readTree_append {spaces : List Char} (h : ∀ c ∈ spaces, isSpace c = true) (fuel : Nat)
    (cs : List Char) : readTree fuel (spaces ++ cs) = readTree fuel cs := by
  cases fuel with
  | zero => rfl
  | succ fuel => rw [readTree, readTree, dropSpace_append h]

theorem readItems_append {spaces : List Char} (h : ∀ c ∈ spaces, isSpace c = true) (fuel : Nat)
    (cs : List Char) : readItems fuel (spaces ++ cs) = readItems fuel cs := by
  cases fuel with
  | zero => rfl
  | succ fuel => rw [readItems, readItems, readTree_append h]

theorem readFields_append {spaces : List Char} (h : ∀ c ∈ spaces, isSpace c = true) (fuel : Nat)
    (cs : List Char) : readFields fuel (spaces ++ cs) = readFields fuel cs := by
  cases fuel with
  | zero => rfl
  | succ fuel => rw [readFields, readFields, dropSpace_append h]

/-- A layout puts nothing but white space between the parts of a document. -/
structure Layout.Blank (layout : Layout) : Prop where
  lineBreak : ∀ level, ∀ c ∈ layout.lineBreak level, isSpace c = true
  afterColon : ∀ c ∈ layout.afterColon, isSpace c = true

theorem Layout.blank_compact : Layout.compact.Blank :=
  ⟨fun _ _ h ↦ absurd h List.not_mem_nil, fun _ h ↦ absurd h List.not_mem_nil⟩

theorem Layout.blank_pretty : Layout.pretty.Blank := by
  refine ⟨fun level c hc ↦ ?_, fun c hc ↦ ?_⟩
  · rcases List.mem_cons.1 hc with rfl | hc
    · rfl
    · rw [List.eq_of_mem_replicate hc]
      rfl
  · rw [List.mem_singleton.1 hc]
    rfl

/-! ### Trees of documents -/

mutual

/-- What is read of a document. -/
def Value.tree : Value → Tree
  | .null => .null
  | .bool b => .bool b
  | .number n => .number (Number.value (Number.ofInt n))
  | .text s => .text (.ok s)
  | .array items => .array (treesOf items) none
  | .object fields => .object (fieldTreesOf fields) none

/-- What is read of the items of an array. -/
def treesOf : List Value → List Tree
  | [] => []
  | item :: items => item.tree :: treesOf items

/-- What is read of the fields of an object. -/
def fieldTreesOf : List (String × Value) → List Field
  | [] => []
  | (name, value) :: fields => (.ok name, value.tree) :: fieldTreesOf fields

end

theorem treesOf_eq_map (items : List Value) : treesOf items = items.map Value.tree := by
  induction items with
  | nil => rfl
  | cons item items ih => rw [treesOf, ih, List.map_cons]

/-! ### Reading what was written -/

/-- A text that begins as numbers do is read as a number. -/
theorem readTree_number {c : Char} (h : c = '-' ∨ Text.isDigit c = true) (fuel : Nat)
    (cs : List Char) : readTree (fuel + 1) (c :: cs) = number (c :: cs) := by
  rcases h with rfl | hdigit
  · rfl
  · rw [Text.isDigit, Bool.and_eq_true, decide_eq_true_iff, decide_eq_true_iff] at hdigit
    have hlow : 48 ≤ c.toNat := hdigit.1
    have hhigh : c.toNat ≤ 57 := hdigit.2
    rw [← Char.ofNat_toNat c]
    -- the reader tells numbers from the rest by trying other beginnings first, one by one
    generalize c.toNat = n at hlow hhigh ⊢
    interval_cases n <;> rfl

theorem exists_cons_toString (n : Int) :
    ∃ c cs, (toString n).toList = c :: cs ∧ (c = '-' ∨ Text.isDigit c = true) := by
  cases n with
  | ofNat n =>
    obtain ⟨d, ds, hds⟩ := List.exists_cons_of_ne_nil (Nat.toDigits_ne_nil (n := n) (b := 10))
    refine ⟨d, ds, Eq.trans Nat.toList_repr hds, Or.inr ?_⟩
    exact Text.isDigit_of_mem_toDigits (n := n) (by rw [hds]; exact List.mem_cons_self)
  | negSucc n => exact ⟨'-', (n + 1).repr.toList, String.toList_append, Or.inl rfl⟩

theorem readTree_toString (n : Int) {rest : List Char} (hrest : Ends rest) (fuel : Nat) :
    readTree (fuel + 1) ((toString n).toList ++ rest) =
      (.number (Number.value (Number.ofInt n)), .ok rest) := by
  have hlexeme := Number.lexeme_toString n hrest
  obtain ⟨c, cs, hcs, hc⟩ := exists_cons_toString n
  rw [hcs, List.cons_append] at hlexeme ⊢
  rw [readTree_number hc, number, hlexeme]

theorem quoted_append (s : String) (rest : List Char) :
    quoted s ++ rest = '"' :: (s.toList.flatMap quotedChar ++ '"' :: rest) := by
  simp [quoted]

theorem readTree_quoted (s : String) (rest : List Char) (fuel : Nat) :
    readTree (fuel + 1) (quoted s ++ rest) = (.text (.ok s), .ok rest) := by
  rw [quoted_append]
  show quotedText _ = _
  rw [quotedText, QuotedText.read_quoted]

section Containers

variable {fuel : Nat} {cs spaces rest : List Char} {item : Tree} {items : List Tree}
  {fields : List Field}

/-- What stands between brackets. -/
theorem readTree_bracket : readTree (fuel + 1) ('[' :: cs) =
    match dropSpace cs with
    | ']' :: rest => (.array [] none, .ok rest)
    | [] => (.array [] (some (.plain .incomplete)), .error (.plain .incomplete))
    | rest =>
      match readItems fuel rest with
      | (items, .ok rest) => (.array items none, .ok rest)
      | (items, .error b) => (.array items (some b), .error b) := by
  rw [readTree, dropSpace_cons (by decide)]
  rfl

/-- What stands between braces. -/
theorem readTree_brace : readTree (fuel + 1) ('\x7b' :: cs) =
    match dropSpace cs with
    | '\x7d' :: rest => (.object [] none, .ok rest)
    | rest =>
      match readFields fuel rest with
      | (fields, .ok rest) => (.object fields none, .ok rest)
      | (fields, .error b) => (.object fields (some b), .error b) := by
  rw [readTree, dropSpace_cons (by decide)]
  rfl

theorem readTree_items {c : Char} (hspaces : ∀ c ∈ spaces, isSpace c = true)
    (hspace : isSpace c = false) (hc : c ≠ ']')
    (h : readItems fuel (c :: cs) = (items, .ok rest)) :
    readTree (fuel + 1) ('[' :: (spaces ++ c :: cs)) = (.array items none, .ok rest) := by
  rw [readTree_bracket, dropSpace_append hspaces, dropSpace_cons hspace]
  split
  · rename_i heq
    exact absurd (List.cons.inj heq).1 hc
  · rename_i heq
    cases heq
  · rw [h]

theorem readTree_fields (hspaces : ∀ c ∈ spaces, isSpace c = true)
    (h : readFields fuel ('"' :: cs) = (fields, .ok rest)) :
    readTree (fuel + 1) ('\x7b' :: (spaces ++ '"' :: cs)) = (.object fields none, .ok rest) := by
  rw [readTree_brace, dropSpace_append hspaces, dropSpace_cons (by decide)]
  simp [h]

theorem readItems_last (hspaces : ∀ c ∈ spaces, isSpace c = true)
    (h : readTree fuel cs = (item, .ok (spaces ++ ']' :: rest))) :
    readItems (fuel + 1) cs = ([item], .ok rest) := by
  rw [readItems, h]
  dsimp only
  rw [dropSpace_append hspaces, dropSpace_cons (by decide)]
  rfl

theorem readItems_more {rest' : List Char} (h : readTree fuel cs = (item, .ok (',' :: rest')))
    (h' : readItems fuel rest' = (items, .ok rest)) :
    readItems (fuel + 1) cs = (item :: items, .ok rest) := by
  rw [readItems, h]
  dsimp only
  rw [dropSpace_cons (by decide)]
  show (item :: (readItems fuel rest').1, (readItems fuel rest').2) = _
  rw [h']

/-- The name of a field and what follows its colon. -/
theorem readFields_name {name : String} :
    readFields (fuel + 1) (quoted name ++ ':' :: cs) =
      match readTree fuel cs with
      | (value, .error b) => ([(.ok name, value)], .error b)
      | (value, .ok rest) =>
        match dropSpace rest with
        | '\x7d' :: rest => ([(.ok name, value)], .ok rest)
        | ',' :: rest =>
          let (fields, rest) := readFields fuel rest
          ((.ok name, value) :: fields, rest)
        | rest => ([(.ok name, value)], .error (unexpected rest)) := by
  have hstep := readFields.eq_2 (quoted name ++ ':' :: cs) fuel
  simp only [quoted_append, dropSpace_cons (show isSpace '"' = false by decide),
    QuotedText.read_quoted, dropSpace_cons (show isSpace ':' = false by decide)] at hstep
  rw [quoted_append]
  exact hstep

theorem readFields_last {name : String} (hspaces : ∀ c ∈ spaces, isSpace c = true)
    (h : readTree fuel cs = (item, .ok (spaces ++ '\x7d' :: rest))) :
    readFields (fuel + 1) (quoted name ++ ':' :: cs) = ([(.ok name, item)], .ok rest) := by
  rw [readFields_name, h]
  dsimp only
  rw [dropSpace_append hspaces, dropSpace_cons (by decide)]
  rfl

theorem readFields_more {name : String} {rest' : List Char}
    (h : readTree fuel cs = (item, .ok (',' :: rest')))
    (h' : readFields fuel rest' = (fields, .ok rest)) :
    readFields (fuel + 1) (quoted name ++ ':' :: cs) = ((.ok name, item) :: fields, .ok rest) := by
  rw [readFields_name, h]
  dsimp only
  rw [dropSpace_cons (by decide)]
  show ((.ok name, item) :: (readFields fuel rest').1, (readFields fuel rest').2) = _
  rw [h']

end Containers

/-! ### Reading what was written -/

theorem ends_append {spaces rest : List Char} {c : Char} (hspaces : ∀ c ∈ spaces, isSpace c = true)
    (hc : Text.isDigit c = false ∧ c ≠ '.' ∧ c ≠ 'e' ∧ c ≠ 'E') : Ends (spaces ++ c :: rest) := by
  cases spaces with
  | nil => exact ends_cons hc
  | cons d spaces =>
    have hd := hspaces d List.mem_cons_self
    simp only [isSpace, Bool.or_eq_true, beq_iff_eq] at hd
    refine ends_cons ?_
    rcases hd with ((rfl | rfl) | rfl) | rfl <;> decide

theorem exists_cons_writeAt (layout : Layout) (level : Nat) (v : Value) :
    ∃ c cs, writeAt layout level v = c :: cs ∧ isSpace c = false ∧ c ≠ ']' := by
  match v with
  | .null => exact ⟨_, _, rfl, by decide, by decide⟩
  | .bool true => exact ⟨_, _, rfl, by decide, by decide⟩
  | .bool false => exact ⟨_, _, rfl, by decide, by decide⟩
  | .number n =>
    obtain ⟨c, cs, hcs, hc⟩ := exists_cons_toString n
    refine ⟨c, cs, hcs, ?_⟩
    rcases hc with rfl | hc
    · exact ⟨by decide, by decide⟩
    · constructor
      · cases hspace : isSpace c with
        | false => rfl
        | true =>
          simp only [isSpace, Bool.or_eq_true, beq_iff_eq] at hspace
          rcases hspace with ((rfl | rfl) | rfl) | rfl <;> exact absurd hc (by decide)
      · rintro rfl
        exact absurd hc (by decide)
  | .text s => exact ⟨_, _, rfl, by decide, by decide⟩
  | .array [] => exact ⟨_, _, rfl, by decide, by decide⟩
  | .array (item :: items) => exact ⟨_, _, rfl, by decide, by decide⟩
  | .object [] => exact ⟨_, _, rfl, by decide, by decide⟩
  | .object ((name, value) :: fields) => exact ⟨_, _, rfl, by decide, by decide⟩

section Written

variable (layout : Layout) (fuel : Nat)

/-- With this fuel a document is read back as its tree, up to what follows it. -/
def ReadsTree : Prop :=
  ∀ v level rest, 2 * (writeAt layout level v).length ≤ fuel → Ends rest →
    readTree fuel (writeAt layout level v ++ rest) = (v.tree, .ok rest)

/-- With this fuel the items of an array are read back, up to its closing bracket. -/
def ReadsItems : Prop :=
  ∀ item items level spaces rest, (∀ c ∈ spaces, isSpace c = true) →
    2 * (writeAt layout (level + 1) item ++ (writeItems layout level items ++ (spaces ++
      [']']))).length ≤ fuel →
    readItems fuel (writeAt layout (level + 1) item ++ (writeItems layout level items ++ (spaces ++
      ']' :: rest))) = (treesOf (item :: items), .ok rest)

/-- With this fuel the fields of an object are read back, up to its closing brace. -/
def ReadsFields : Prop :=
  ∀ name value fields level spaces rest, (∀ c ∈ spaces, isSpace c = true) →
    2 * (quoted name ++ ':' :: (layout.afterColon ++ (writeAt layout (level + 1) value ++
      (writeFields layout level fields ++ (spaces ++ ['\x7d']))))).length ≤ fuel →
    readFields fuel (quoted name ++ ':' :: (layout.afterColon ++
      (writeAt layout (level + 1) value ++ (writeFields layout level fields ++ (spaces ++
      '\x7d' :: rest))))) = (fieldTreesOf ((name, value) :: fields), .ok rest)

variable {layout fuel} (hlayout : layout.Blank)

include hlayout

theorem readsTree_succ (hitems : ReadsItems layout fuel) (hfields : ReadsFields layout fuel) :
    ReadsTree layout (fuel + 1) := by
  intro v level rest hfuel hrest
  match v with
  | .null => rfl
  | .bool true => rfl
  | .bool false => rfl
  | .number n => exact readTree_toString n hrest fuel
  | .text s => exact readTree_quoted s rest fuel
  | .array [] => rfl
  | .array (item :: items) =>
    obtain ⟨d, ds, hds, hspace, hd⟩ := exists_cons_writeAt layout (level + 1) item
    have hread := hitems item items level _ rest (hlayout.lineBreak (level - 1)) (by
      rw [writeAt] at hfuel
      simp only [List.length_append, List.length_cons, List.length_nil] at hfuel ⊢
      omega)
    rw [writeAt]
    simp only [List.append_assoc, List.cons_append, List.nil_append, hds] at hread ⊢
    exact readTree_items (hlayout.lineBreak level) hspace hd hread
  | .object [] => rfl
  | .object ((name, value) :: fields) =>
    have hread := hfields name value fields level _ rest (hlayout.lineBreak (level - 1)) (by
      rw [writeAt] at hfuel
      simp only [List.length_append, List.length_cons, List.length_nil] at hfuel ⊢
      omega)
    rw [writeAt]
    simp only [List.append_assoc, List.cons_append, List.nil_append, quoted_append] at hread ⊢
    exact readTree_fields (hlayout.lineBreak level) hread

theorem readsItems_succ (htree : ReadsTree layout fuel) (hitems : ReadsItems layout fuel) :
    ReadsItems layout (fuel + 1) := by
  intro item items level spaces rest hspaces hfuel
  simp only [List.length_append, List.length_cons, List.length_nil] at hfuel
  cases items with
  | nil =>
    have hitem := htree item (level + 1) (spaces ++ ']' :: rest) (by omega)
      (ends_append hspaces (by decide))
    exact readItems_last hspaces hitem
  | cons next items =>
    rw [writeItems] at hfuel ⊢
    simp only [List.length_append, List.length_cons] at hfuel
    have hmore := hitems next items level spaces rest hspaces (by
      simp only [List.length_append, List.length_cons, List.length_nil]
      omega)
    rw [← readItems_append (hlayout.lineBreak level)] at hmore
    have hitem := htree item (level + 1) (',' :: (layout.lineBreak level ++
      (writeAt layout (level + 1) next ++ (writeItems layout level items ++ (spaces ++
      ']' :: rest))))) (by omega) (ends_cons (by decide))
    simp only [List.append_assoc, List.cons_append]
    exact readItems_more hitem hmore

theorem readsFields_succ (htree : ReadsTree layout fuel) (hfields : ReadsFields layout fuel) :
    ReadsFields layout (fuel + 1) := by
  intro name value fields level spaces rest hspaces hfuel
  simp only [List.length_append, List.length_cons, List.length_nil] at hfuel
  cases fields with
  | nil =>
    have hvalue := htree value (level + 1) (spaces ++ '\x7d' :: rest) (by omega)
      (ends_append hspaces (by decide))
    rw [← readTree_append hlayout.afterColon] at hvalue
    exact readFields_last hspaces hvalue
  | cons field fields =>
    obtain ⟨next, nextValue⟩ := field
    rw [writeFields] at hfuel ⊢
    simp only [List.length_append, List.length_cons] at hfuel
    have hmore := hfields next nextValue fields level spaces rest hspaces (by
      simp only [List.length_append, List.length_cons, List.length_nil]
      omega)
    rw [← readFields_append (hlayout.lineBreak level)] at hmore
    have hvalue := htree value (level + 1) (',' :: (layout.lineBreak level ++ (quoted next ++ ':' ::
      (layout.afterColon ++ (writeAt layout (level + 1) nextValue ++
      (writeFields layout level fields ++ (spaces ++ '\x7d' :: rest))))))) (by omega)
      (ends_cons (by decide))
    rw [← readTree_append hlayout.afterColon] at hvalue
    simp only [List.append_assoc, List.cons_append]
    exact readFields_more hvalue hmore

/-- Every document is read back, with any fuel that its length allows. -/
theorem reads_written :
    ReadsTree layout fuel ∧ ReadsItems layout fuel ∧ ReadsFields layout fuel := by
  induction fuel with
  | zero =>
    -- nothing that is written is empty, so that no fuel allows for nothing
    refine ⟨fun v level rest hfuel ↦ ?_, fun item items level spaces rest _ hfuel ↦ ?_,
      fun name value fields level spaces rest _ hfuel ↦ ?_⟩
    · obtain ⟨c, cs, hcs, -⟩ := exists_cons_writeAt layout level v
      simp [hcs] at hfuel
    · simp at hfuel
    · simp at hfuel
  | succ fuel ih =>
    obtain ⟨htree, hitems, hfields⟩ := ih
    exact ⟨readsTree_succ hlayout hitems hfields, readsItems_succ hlayout htree hitems,
      readsFields_succ hlayout htree hfields⟩

/-- Decoding the text of a document is decoding its tree. -/
theorem decodeText_write {α : Type} (value : Decoder α) (v : Value) (level : Nat) :
    decodeText value (String.ofList (writeAt layout level v)) = value v.tree := by
  have htree : Tree.ofText (String.ofList (writeAt layout level v)) = (v.tree, .ok []) := by
    rw [Tree.ofText, String.toList_ofList]
    have hreads : ReadsTree layout (2 * (writeAt layout level v).length + 2) :=
      (reads_written hlayout).1
    have hread := hreads v level [] (by omega) ends_nil
    rwa [List.append_nil] at hread
  rw [decodeText, htree]
  dsimp only
  cases value v.tree with
  | error problem => rfl
  | ok a => rfl

end Written

theorem decodeText_compact {α : Type} (value : Decoder α) (v : Value) :
    decodeText value v.compact = value v.tree :=
  decodeText_write Layout.blank_compact value v 1

theorem decodeText_pretty {α : Type} (value : Decoder α) (v : Value) :
    decodeText value v.pretty = value v.tree :=
  decodeText_write Layout.blank_pretty value v 1

end PeerRelay.Json
