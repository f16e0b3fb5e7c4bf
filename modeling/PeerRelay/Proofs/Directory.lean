import Mathlib.Data.List.Nodup
import PeerRelay.Instance

/-!
# The directory as a map keyed by URI

A call leaves out every peer of the URI that it names, and puts the peer it adds at the end
(`instances_serve`). So of the peers that a directory begins with those are left whose URI was never
named, and behind them stand the peers whose adding was the last call of their URI, in the order of
these calls (`instances_after`, by induction on the calls from any directory). What a directory
knows is read off this list: an added peer is there if and only if no call named its URI afterwards
(`mem_survivors_iff`), and no two of them have one URI (`uris_survivors_nodup`).

The URIs that a directory begins with may be repeated, and stay so until a call names them.
-/

namespace PeerRelay.Directory

/-! ### Calls -/

/-- A call that changes a directory. -/
inductive Call where
  | add (i : Instance)
  | remove (uri : String)
deriving DecidableEq

/-- The URI that a call names. -/
def Call.uri : Call → String
  | .add i => i.uri
  | .remove uri => uri

@[simp] theorem Call.uri_add (i : Instance) : (Call.add i).uri = i.uri := rfl

@[simp] theorem Call.uri_remove (uri : String) : (Call.remove uri).uri = uri := rfl

/-- The peer that a call adds. -/
def Call.added? : Call → Option Instance
  | .add i => some i
  | .remove _ => none

/-- What a directory does with a call. A removal is told whether the URI was known. -/
def serve (d : Directory) : Call → Option Bool × Directory
  | .add i => (none, d.add i)
  | .remove uri => (d.takeOut uri).map some id

/-- The directory after calls that are made one after the other. -/
def after (d : Directory) (calls : List Call) : Directory :=
  calls.foldl (fun d c ↦ (d.serve c).2) d

/-- What these calls are told. -/
def answers (d : Directory) : List Call → List (Option Bool)
  | [] => []
  | c :: later => (d.serve c).1 :: (d.serve c).2.answers later

/-- The last call that names a URI. -/
def lastCall (uri : String) (calls : List Call) : Option Call :=
  calls.findRev? (·.uri == uri)

/-- The peers that are added and whose URI is not named by a later call, in the order in which they
are added. -/
def survivors : List Call → List Instance
  | [] => []
  | c :: later =>
    if ∃ c' ∈ later, c'.uri = c.uri then survivors later else c.added?.toList ++ survivors later

variable {d : Directory} {c : Call} {calls later : List Call} {i : Instance} {uri : String}

/-! ### One call -/

theorem contains_iff : d.contains uri = true ↔ ∃ i ∈ d.instances, i.uri = uri := by
  simp [contains]

/-- A directory gets shorter by a removal if and only if it knew the URI. -/
theorem takeOut_eq (d : Directory) (uri : String) :
    d.takeOut uri = (d.contains uri, d.remove uri) := by
  refine Prod.ext ?_ rfl
  show ((d.remove uri).instances.length != d.instances.length) = d.contains uri
  rw [Bool.eq_iff_iff, bne_iff_ne, contains_iff, Ne, remove, List.length_filter_eq_length_iff]
  simp

/-- What a call leaves: the peers of other URIs, and the one that it adds. -/
theorem instances_serve (d : Directory) (c : Call) :
    (d.serve c).2.instances = d.instances.filter (·.uri != c.uri) ++ c.added?.toList := by
  cases c with
  | add i => rfl
  | remove uri => exact (List.append_nil _).symm

theorem mem_added_iff : i ∈ c.added?.toList ↔ c = .add i := by
  cases c with
  | add j => simp [Call.added?, eq_comm]
  | remove uri => simp [Call.added?]

/-! ### The last call -/

theorem lastCall_cons (uri : String) (c : Call) (later : List Call) :
    lastCall uri (c :: later) =
      (lastCall uri later).or (if c.uri = uri then some c else none) := by
  simp only [lastCall, List.findRev?, beq_iff_eq]
  cases later.findRev? (·.uri == uri) <;> rfl

theorem lastCall_eq_none : lastCall uri calls = none ↔ ∀ c ∈ calls, c.uri ≠ uri := by
  simp [lastCall, List.findRev?_eq_find?_reverse]

theorem uri_of_lastCall (h : lastCall uri calls = some c) : c.uri = uri := by
  rw [lastCall, List.findRev?_eq_find?_reverse] at h
  simpa using List.find?_some h

/-! ### Many calls -/

theorem survivors_of_named (h : ∃ c' ∈ later, c'.uri = c.uri) :
    survivors (c :: later) = survivors later :=
  if_pos h

theorem survivors_of_last (h : ∀ c' ∈ later, c'.uri ≠ c.uri) :
    survivors (c :: later) = c.added?.toList ++ survivors later :=
  if_neg fun ⟨c', hc', huri⟩ ↦ h c' hc' huri

/-- The peers that were there from the beginning and were never named, and those that were added and
not named afterwards. -/
theorem instances_after (d : Directory) (calls : List Call) :
    (d.after calls).instances =
      d.instances.filter (fun i ↦ ∀ c ∈ calls, c.uri ≠ i.uri) ++ survivors calls := by
  induction calls generalizing d with
  | nil => simp [after, survivors]
  | cons c later ih =>
    show ((d.serve c).2.after later).instances = _
    have hleft : ((d.instances.filter (·.uri != c.uri)).filter
          fun i ↦ ∀ c' ∈ later, c'.uri ≠ i.uri) =
        d.instances.filter fun i ↦ ∀ c' ∈ c :: later, c'.uri ≠ i.uri := by
      rw [List.filter_filter]
      refine List.filter_congr fun i _ ↦ ?_
      by_cases hi : i.uri = c.uri
      · simp [hi]
      · simp [hi, Ne.symm hi]
    have hadded : (c.added?.toList.filter fun i ↦ ∀ c' ∈ later, c'.uri ≠ i.uri) ++
        survivors later = survivors (c :: later) := by
      by_cases hnamed : ∃ c' ∈ later, c'.uri = c.uri
      · rw [survivors_of_named hnamed, List.filter_eq_nil_iff.2, List.nil_append]
        intro i hi
        simpa [mem_added_iff.1 hi] using hnamed
      · push Not at hnamed
        rw [survivors_of_last hnamed, List.filter_eq_self.2]
        intro i hi
        simpa [mem_added_iff.1 hi] using hnamed
    rw [ih, instances_serve, List.filter_append, hleft, List.append_assoc, hadded]

/-- A peer that was added is there if its adding was the last call of its URI. -/
theorem mem_survivors_iff : i ∈ survivors calls ↔ lastCall i.uri calls = some (.add i) := by
  induction calls with
  | nil => simp [survivors, lastCall]
  | cons c later ih =>
    rw [lastCall_cons]
    by_cases hnamed : ∃ c' ∈ later, c'.uri = c.uri
    · rw [survivors_of_named hnamed, ih]
      cases hlast : lastCall i.uri later with
      | some c' => rfl
      | none =>
        -- what is named later is not the URI of the peer, so that the first call does not name it
        have hne : c.uri ≠ i.uri := by
          intro huri
          obtain ⟨c', hc', hsame⟩ := hnamed
          exact lastCall_eq_none.1 hlast c' hc' (hsame.trans huri)
        rw [if_neg hne, Option.or_none]
    · push Not at hnamed
      rw [survivors_of_last hnamed, List.mem_append, mem_added_iff, ih]
      by_cases huri : c.uri = i.uri
      · have hnone : lastCall i.uri later = none := lastCall_eq_none.2 (huri ▸ hnamed)
        simp [hnone, huri]
      · have hne : c ≠ .add i := fun h ↦ huri (congrArg Call.uri h)
        rw [if_neg huri, Option.or_none, or_iff_right hne]

/-- The peers that were added have different URIs. -/
theorem uris_survivors_nodup (calls : List Call) : ((survivors calls).map (·.uri)).Nodup := by
  induction calls with
  | nil => exact List.nodup_nil
  | cons c later ih =>
    by_cases hnamed : ∃ c' ∈ later, c'.uri = c.uri
    · rwa [survivors_of_named hnamed]
    · push Not at hnamed
      rw [survivors_of_last hnamed]
      cases c with
      | remove uri => exact ih
      | add i =>
        refine List.nodup_cons.2 ⟨fun hi ↦ ?_, ih⟩
        obtain ⟨j, hj, huri⟩ := List.mem_map.1 hi
        cases (lastCall_eq_none.2 (huri ▸ hnamed)).symm.trans (mem_survivors_iff.1 hj)

/-- A URI is known if its last call added a peer, or if it was there and no call named it. -/
theorem contains_after : (d.after calls).contains uri = true ↔
    (∃ i, lastCall uri calls = some (.add i)) ∨
      lastCall uri calls = none ∧ d.contains uri = true := by
  have hadded : (∃ i ∈ survivors calls, i.uri = uri) ↔
      ∃ i, lastCall uri calls = some (.add i) := by
    constructor
    · rintro ⟨i, hi, rfl⟩
      exact ⟨i, mem_survivors_iff.1 hi⟩
    · rintro ⟨i, hi⟩
      obtain rfl := uri_of_lastCall hi
      exact ⟨i, mem_survivors_iff.2 hi, rfl⟩
  have hleft : (∃ i ∈ d.instances.filter (fun i ↦ ∀ c ∈ calls, c.uri ≠ i.uri), i.uri = uri) ↔
      lastCall uri calls = none ∧ d.contains uri = true := by
    rw [lastCall_eq_none, contains_iff]
    constructor
    · rintro ⟨i, hi, rfl⟩
      obtain ⟨hi, huntouched⟩ := List.mem_filter.1 hi
      exact ⟨of_decide_eq_true huntouched, i, hi, rfl⟩
    · rintro ⟨huntouched, i, hi, rfl⟩
      exact ⟨i, List.mem_filter.2 ⟨hi, decide_eq_true huntouched⟩, rfl⟩
  rw [contains_iff, instances_after, ← hadded, ← hleft, or_comm]
  simp only [List.mem_append, or_and_right, exists_or]

/-! ### What calls are told -/

theorem answers_append (d : Directory) (before later : List Call) :
    d.answers (before ++ later) = d.answers before ++ (d.after before).answers later := by
  induction before generalizing d with
  | nil => rfl
  | cons c before ih => exact congrArg (_ :: ·) (ih _)

theorem length_answers (d : Directory) (calls : List Call) :
    (d.answers calls).length = calls.length := by
  induction calls generalizing d with
  | nil => rfl
  | cons c later ih => exact congrArg (· + 1) (ih _)

/-- A removal is told whether the URI was known just before. -/
theorem answer_remove (d : Directory) (before later : List Call) (uri : String) :
    (d.answers (before ++ .remove uri :: later))[before.length]? =
      some (some ((d.after before).contains uri)) := by
  rw [answers_append, List.getElem?_append_right (Nat.le_of_eq (length_answers d before)),
    length_answers, Nat.sub_self, answers, List.getElem?_cons_zero, serve, takeOut_eq]
  rfl

/-- **A directory behaves as a map keyed by URI.** It may begin with peers of which some have the
same URI, and peers are added and removed in any order.

- It knows a URI if the last call that named it added a peer, or if no call named it and it was
  there from the beginning.
- A removal is told whether the URI was known just before.
- A URI that some call named is there once at most, with the peer that its last call added.
- The peers are those of the beginning that no call named, in their order, and behind them the peers
  that were added and not named afterwards, in the order of the calls that added them. -/
theorem behaves_as_map (d : Directory) (calls : List Call) :
    (∀ uri, (d.after calls).contains uri = true ↔
      (∃ i, lastCall uri calls = some (.add i)) ∨
        lastCall uri calls = none ∧ d.contains uri = true) ∧
    (∀ before uri later, calls = before ++ .remove uri :: later →
      (d.answers calls)[before.length]? = some (some ((d.after before).contains uri))) ∧
    (∀ c ∈ calls, ((d.after calls).instances.map (·.uri)).count c.uri ≤ 1 ∧
      ∀ i ∈ (d.after calls).instances, i.uri = c.uri → lastCall c.uri calls = some (.add i)) ∧
    (d.after calls).instances =
      d.instances.filter (fun i ↦ ∀ c ∈ calls, c.uri ≠ i.uri) ++ survivors calls := by
  refine ⟨fun uri ↦ contains_after, ?_, fun c hc ↦ ?_, instances_after d calls⟩
  · rintro before uri later rfl
    exact answer_remove d before later uri
  · -- no peer of the beginning has a URI that was named
    have hgone : ∀ i ∈ d.instances.filter (fun i ↦ ∀ c ∈ calls, c.uri ≠ i.uri), i.uri ≠ c.uri :=
      fun i hi huri ↦ of_decide_eq_true (List.mem_filter.1 hi).2 c hc huri.symm
    rw [instances_after]
    constructor
    · have hnone : c.uri ∉ (d.instances.filter fun i ↦ ∀ c ∈ calls, c.uri ≠ i.uri).map (·.uri) := by
        rintro hmem
        obtain ⟨i, hi, huri⟩ := List.mem_map.1 hmem
        exact hgone i hi huri
      rw [List.map_append, List.count_append, List.count_eq_zero.2 hnone, Nat.zero_add]
      exact List.nodup_iff_count_le_one.1 (uris_survivors_nodup calls) c.uri
    · intro i hi huri
      rcases List.mem_append.1 hi with hleft | hadded
      · exact absurd huri (hgone i hleft)
      · exact huri ▸ mem_survivors_iff.1 hadded

/-- A directory that begins with two peers of one URI, twice. -/
def crowded : Directory :=
  ⟨[⟨"a", "http://a"⟩, ⟨"b", "http://b"⟩, ⟨"old a", "http://a"⟩, ⟨"c", "http://c"⟩,
    ⟨"old c", "http://c"⟩]⟩

/-- One URI is taken out, and another one is renewed twice. -/
def renewals : List Call :=
  [.add ⟨"b again", "http://b"⟩, .remove "http://a", .add ⟨"d", "http://d"⟩,
    .add ⟨"new b", "http://b"⟩]

/-- The URI that was taken out is unknown when it is removed again. The peer that was renewed stands
behind the one that was added before its last renewal, and what no call named is left as it was. -/
theorem behaves_as_map_of_renewals :
    crowded.contains "http://a" = true ∧
    (crowded.after (renewals ++ [.remove "http://a"])).contains "http://a" = false ∧
    (crowded.answers (renewals ++ [.remove "http://a"]))[4]? = some (some false) ∧
    (.add ⟨"b again", "http://b"⟩ : Call) ∈ renewals ++ [.remove "http://a"] ∧
    ((crowded.after (renewals ++ [.remove "http://a"])).instances.map (·.uri)).count
      "http://b" ≤ 1 ∧
    (crowded.after (renewals ++ [.remove "http://a"])).instances =
      [⟨"c", "http://c"⟩, ⟨"old c", "http://c"⟩, ⟨"d", "http://d"⟩, ⟨"new b", "http://b"⟩] := by
  obtain ⟨hcontains, hanswers, hnamed, hinstances⟩ :=
    behaves_as_map crowded (renewals ++ [.remove "http://a"])
  have hmem : (.add ⟨"b again", "http://b"⟩ : Call) ∈ renewals ++ [.remove "http://a"] := by decide
  have hknown : (crowded.after renewals).contains "http://a" = false := by decide
  refine ⟨by decide, ?_, ?_, hmem, (hnamed _ hmem).1, hinstances.trans (by decide)⟩
  · have hlast : lastCall "http://a" (renewals ++ [.remove "http://a"]) =
        some (.remove "http://a") := by decide
    rw [Bool.eq_false_iff, Ne, hcontains, hlast]
    simp
  · rw [← hknown]
    exact hanswers renewals "http://a" [] rfl

end PeerRelay.Directory
