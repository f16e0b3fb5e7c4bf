import PeerRelay.Proofs.Delivery.Durability

/-!
# Where stored messages come from

A row of the store was there at the beginning or was written since, and every record that was
reloaded was read from such a row (`recorded`). While no id is submitted twice, what the storing
worker holds has an id under which nothing became due so far (`id_ne_of_due`).
-/

namespace PeerRelay.Delivery

open Observation World

namespace Generation

variable {w : World} {g : Generation} {a : Action} {c : Change}

theorem Acts.stores_of {row : Store.MessageRow} (h : g.Acts w a c) (hrow : c.db.Stores row) :
    w.db.Stores row ∨ ∃ k m targets, .write k m targets true ∈ c.seen ∧ row = .ofMessage m := by
  rcases h.db_cases with hsame | ⟨s, record, -, hwritten, hseen⟩ | ⟨id, uri, -, hremove⟩
  · exact Or.inl (hsame ▸ hrow)
  · rcases Store.stores_of_write hwritten hrow with rfl | hbefore
    · exact Or.inr ⟨_, _, _, hseen, rfl⟩
    · exact Or.inl hbefore
  · exact Or.inl (Store.stores_of_remove hremove hrow)

/-- A message that wants a peer did so before, or is what the storing worker held. -/
theorem Acts.wants_of {id uri : String} (h : g.Acts w a c) (hwants : c.db.Wants id uri) :
    w.db.Wants id uri ∨ ∃ s ∈ g.held, s.message.id = id := by
  rcases h.db_cases with hsame | ⟨s, record, hs, hwritten, -⟩ | ⟨id, uri, -, hremove⟩
  · exact Or.inl (hsame ▸ hwants)
  · rcases Store.wants_of_write hwritten hwants with rfl | hbefore
    · exact Or.inr ⟨s, hs, rfl⟩
    · exact Or.inl hbefore
  · exact Or.inl ((Store.wants_remove hremove).1 hwants).1

end Generation

/-! ### Rows and records -/

/-- A row that was in the store at the beginning, or that of a message that was written since. -/
def World.Knows (w : World) (db : Store.Database) (row : Store.MessageRow) : Prop :=
  db.Stores row ∨
    ∃ n k m targets, (n, .write k m targets true) ∈ w.trace ∧ row = .ofMessage m

theorem World.Knows.later {w w' : World} {db : Store.Database} {row : Store.MessageRow}
    (h : w.Knows db row) (hsuffix : w.trace <:+ w'.trace) : w'.Knows db row :=
  h.imp_right fun ⟨n, k, m, targets, hwrite, hrow⟩ ↦
    ⟨n, k, m, targets, hsuffix.subset hwrite, hrow⟩

/-- The rows of the store are known, and so are those from which records were reloaded. -/
structure Recorded (db : Store.Database) (w : World) : Prop where
  rows : ∀ row, w.db.Stores row → w.Knows db row
  records : ∀ n k record, (n, .reloaded k record) ∈ w.trace →
    ∃ row r, w.Knows db row ∧ row.typed = .ok r ∧ r.message? = some record.message ∧
      record.message.id = r.id

theorem Recorded.later {db : Store.Database} {w w' : World} (h : Recorded db w)
    (later : List (Nat × Observation)) (htrace : w'.trace = later ++ w.trace)
    (hrows : ∀ row, w'.db.Stores row → w.db.Stores row ∨
      ∃ n k m targets, (n, .write k m targets true) ∈ later ∧ row = .ofMessage m)
    (hrecords : ∀ n k record, (n, .reloaded k record) ∈ later →
      ∃ row r, w.db.Stores row ∧ row.typed = .ok r ∧ r.message? = some record.message ∧
        record.message.id = r.id) : Recorded db w' := by
  have hsuffix : w.trace <:+ w'.trace := htrace ▸ List.suffix_append _ _
  constructor
  · intro row hrow
    rcases hrows row hrow with hbefore | ⟨n, k, m, targets, hwrite, rfl⟩
    · exact (h.rows row hbefore).later hsuffix
    · exact Or.inr ⟨n, k, m, targets, htrace ▸ List.mem_append_left _ hwrite, rfl⟩
  · intro n k record hrecord
    rw [htrace] at hrecord
    rcases List.mem_append.1 hrecord with hnow | hbefore
    · obtain ⟨row, r, hrow, hread⟩ := hrecords n k record hnow
      exact ⟨row, r, (h.rows row hrow).later hsuffix, hread⟩
    · obtain ⟨row, r, hrow, hread⟩ := h.records n k record hbefore
      exact ⟨row, r, hrow.later hsuffix, hread⟩

theorem mem_of_mem_numbered {first k : Nat} {records : List Store.Record} {record : Store.Record}
    (h : (k, record) ∈ numbered first records) : record ∈ records := by
  obtain ⟨⟨r, i⟩, hmem, heq⟩ := List.mem_map.1 h
  obtain ⟨-, rfl⟩ := Prod.mk.inj heq
  exact List.fst_mem_of_mem_zipIdx hmem

section Reached

variable {may : World → Move → Prop} {d : Directory} {db : Store.Database} {w : World} {n : Nat}
  {g : Generation}

theorem keyed_of_reaches (hr : Reaches may (initial d db) w) (keyed : db.Keyed) : w.db.Keyed := by
  refine Reaches.induct (P := fun w ↦ w.db.Keyed) hr keyed fun _ _ hmove ih ↦ ?_
  obtain ⟨later, htrace⟩ := hmove.trace_suffix
  rcases hmove.db_cases htrace.symm with hsame | ⟨records, hload⟩ |
    ⟨n, g, s, record, -, -, hwritten, -⟩ | ⟨id, uri, -, hremove⟩
  · rwa [hsame]
  · exact Store.keyed_load hload ih
  · exact Store.keyed_write hwritten ih
  · exact Store.keyed_remove hremove ih

theorem recorded (hr : Reaches may (initial d db) w) : Recorded db w := by
  refine Reaches.induct (P := Recorded db) hr ?_ fun {v v' m} _ _ hmove ih ↦ ?_
  · exact ⟨fun row hrow ↦ Or.inl hrow, fun n k record h ↦ absurd h List.not_mem_nil⟩
  · cases hmove with
    | start settings call records db' loaded =>
      refine ih.later _ rfl (fun row hrow ↦ ?_) fun n k record hrecord ↦ ?_
      · rcases db_of_load loaded with ⟨-, rfl⟩ | hload
        · exact Or.inl hrow
        · exact Or.inl (Store.stores_of_load hload hrow)
      · simp only [reloadSeen, List.mem_reverse, List.mem_map, Prod.mk.injEq] at hrecord
        obtain ⟨o, ⟨r, hr, rfl⟩, -, heq⟩ := hrecord
        cases heq
        rcases db_of_load loaded with ⟨rfl, -⟩ | hload
        · exact absurd (mem_of_mem_numbered hr) List.not_mem_nil
        · exact Store.row_of_mem_load hload (mem_of_mem_numbered hr)
    | refuse n g m targets at_n closed inUse =>
      exact ih.later [_, _] rfl (fun row hrow ↦ Or.inl hrow) (by simp)
    | call n g m targets at_n isOpen inUse =>
      exact ih.later [_] rfl (fun row hrow ↦ Or.inl hrow) (by simp)
    | act n g a c at_n acts =>
      refine ih.later _ rfl (fun row hrow ↦ ?_) fun n' k record hrecord ↦ ?_
      · rcases acts.stores_of hrow with hstored | ⟨k, m, targets, hwrite, hrow⟩
        · exact Or.inl hstored
        · exact Or.inr ⟨n, k, m, targets, List.mem_reverse.2 (List.mem_map_of_mem hwrite), hrow⟩
      · simp only [List.mem_reverse, List.mem_map, Prod.mk.injEq] at hrecord
        obtain ⟨o, hseen, -, rfl⟩ := hrecord
        have hissued := issued?_of_acts acts _ hseen
        cases hissued
    | tick millis => exact ⟨ih.rows, ih.records⟩
    | register i => exact ⟨ih.rows, ih.records⟩
    | unregister uri => exact ⟨ih.rows, ih.records⟩

/-- Nothing became due under the id of what is held. -/
theorem id_ne_of_due {n' : Nat} {s : Submission} {x : Duty} (hr : Reaches may (initial d db) w)
    (hfresh : FreshIds db w.trace) (hg : w.generations[n]? = some g) (hs : s ∈ g.held)
    (hx : x ∈ (w.traceOf n').flatMap due) : x.message.id ≠ s.message.id := by
  rcases mem_due hx with ⟨s', targets, hs', hkey, hi⟩ | ⟨record, hrecord, hmessage, -⟩
  · have hsettled : s'.key ∈ (w.traceOf n').filterMap settled? := by
      obtain ⟨g', hg'⟩ := exists_generation hr (mem_traceOf.1 hs')
      exact (held_accounted hr hg').settled_of_processed hs'
    obtain ⟨o, ho, hos⟩ := List.mem_filterMap.1 hsettled
    have hne := id_ne_of_settled hr hfresh.distinct hg hs (mem_traceOf.1 ho) hos
    rwa [hkey] at hne
  · rw [← hmessage]
    obtain ⟨row, r, hknown, htyped, -, hid⟩ :=
      (recorded hr).records n' x.ticket record (mem_traceOf.1 hrecord)
    have hrow : row.id = .text record.message.id := by rw [Store.id_of_typed htyped, hid]
    rcases hknown with hstored | ⟨n₁, k, m, targets, hwrite, rfl⟩
    · have haccepted := acceptedId_of_held hr hg hs
      exact fun heq ↦ hfresh.unstored row hstored _ haccepted (by rw [hrow, heq])
    · have hne := id_ne_of_settled hr hfresh.distinct hg hs hwrite rfl
      rwa [← Store.Cell.text.inj hrow]

end Reached

end PeerRelay.Delivery
