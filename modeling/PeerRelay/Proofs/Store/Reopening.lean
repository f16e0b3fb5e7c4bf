import PeerRelay.Proofs.Store.Refinement
import PeerRelay.Proofs.Store.Resuming

/-!
# A store that stays in use

A store is *usable* if its setup is recorded and it can be loaded (`Usable`). A store that was set
up from nothing is, and every request leaves a usable store usable, whatever it asks for and whether
or not it succeeds (`Usable.serve`); in particular it can be closed and opened at any time.

A message that was written is *kept* for a peer if it waits for the peer and no other row has its
id (`Keeps`). It is kept until its id is written again or the peer is taken off (`Keeps.serve`), and
whatever is loaded under its id meanwhile is the message as it is read again (`Keeps.load`).
-/

namespace PeerRelay.Store

open Calendar

/-- The store that requests leave which are made one after the other. -/
def Database.serveAll (db : Database) (requests : List Request) : Database :=
  requests.foldl (fun db request ↦ (db.serve request).2) db

/-! ### Usable stores -/

/-- The setup is recorded, and the store can be loaded. -/
structure Usable (db : Database) : Prop where
  recorded : Migration.Recorded db
  loads : ∃ records db', load db = (.ok records, db')

section Usable

variable {db db' : Database} {messages messages' : List MessageRow}
  {targets targets' : List TargetRow}

/-- Some of the rows of a store that can be loaded can be loaded. -/
theorem exists_load_of_subset (h : ∃ records db₀, load db = (.ok records, db₀))
    (hm : db.messages = some messages) (ht : db.targets = some targets)
    (hm' : db'.messages = some messages') (ht' : db'.targets = some targets')
    (hmessages : messages' ⊆ messages) (htargets : targets' ⊆ targets) :
    ∃ records db₀, load db' = (.ok records, db₀) := by
  obtain ⟨messages₀, targets₀, hm₀, ht₀, hrows⟩ := exists_load_iff.1 h
  obtain rfl : messages = messages₀ := Option.some.inj (hm.symm.trans hm₀)
  obtain rfl : targets = targets₀ := Option.some.inj (ht.symm.trans ht₀)
  refine exists_load_iff.2 ⟨messages', targets', hm', ht', fun row hrow ↦ ?_⟩
  obtain ⟨r, htyped, hpeers⟩ := hrows row (hmessages hrow)
  refine ⟨r, htyped, fun peer hpeer ↦ hpeers peer ?_⟩
  obtain ⟨hmem, hid⟩ := mem_targetsOf.1 hpeer
  exact mem_targetsOf.2 ⟨htargets hmem, hid⟩

theorem withoutFinished_subset (id : String) (messages : List MessageRow)
    (targets : List TargetRow) : withoutFinished id messages targets ⊆ messages := by
  rw [withoutFinished]
  split
  · exact List.Subset.refl _
  · exact List.filter_subset_self _

theorem Usable.write (h : Usable db) (m : Message) (l : List Instance) :
    Usable (write db m l).2 := by
  cases hwrite : Store.write db m l with
  | mk result db' =>
    cases result with
    | error fault => exact write_eq_error hwrite ▸ h
    | ok record =>
      obtain ⟨records, db₀, hload⟩ := h.loads
      obtain ⟨version, hle, hversion⟩ := h.recorded
      refine ⟨⟨version, hle, ?_⟩, exists_load_write hwrite hload⟩
      obtain ⟨-, messages, targets, -, -, rfl⟩ := write_eq_ok hwrite
      exact (Migration.recordedVersion_congr rfl).trans hversion

theorem Usable.remove (h : Usable db) (id uri : String) : Usable (remove db id uri).2 := by
  obtain ⟨messages, targets, hm, ht, -⟩ := exists_load_iff.1 h.loads
  rw [remove_of_tables id uri hm ht]
  obtain ⟨version, hle, hversion⟩ := h.recorded
  exact ⟨⟨version, hle, (Migration.recordedVersion_congr rfl).trans hversion⟩,
    exists_load_of_subset h.loads hm ht rfl rfl (withoutFinished_subset _ _ _)
      (List.filter_subset_self _)⟩

theorem Usable.load (h : Usable db) : Usable (load db).2 := by
  obtain ⟨records, db', hload⟩ := h.loads
  obtain ⟨messages, targets, read, hm, ht, -, -, rfl⟩ := load_eq_ok hload
  rw [hload]
  obtain ⟨version, hle, hversion⟩ := h.recorded
  exact ⟨⟨version, hle, (Migration.recordedVersion_congr rfl).trans hversion⟩,
    exists_load_of_subset h.loads hm ht (congrArg (Option.map _) hm) ht (List.filter_subset_self _)
      (List.Subset.refl _)⟩

/-- Every request leaves the store usable. -/
theorem Usable.serve (h : Usable db) : ∀ request : Request, Usable (db.serve request).2
  | .write m l => h.write m l
  | .remove id uri => h.remove id uri
  | .load => h.load
  | .count => h
  | .countByTarget => h
  | .reopen => by
    rw [Database.serve, h.recorded.run_eq]
    exact h

theorem Usable.serveAll (h : Usable db) (requests : List Request) :
    Usable (db.serveAll requests) := by
  induction requests generalizing db with
  | nil => exact h
  | cons request rest ih => exact ih (h.serve request)

theorem usable_fresh : Usable .fresh where
  recorded := ⟨Migration.currentVersion, Int.le_refl _, rfl⟩
  loads := ⟨[], .fresh, rfl⟩

end Usable

/-! ### Messages that are kept -/

/-- A request neither writes an id nor takes a peer off it. -/
def Request.Spares (id uri : String) : Request → Prop
  | .write m _ => m.id ≠ id
  | .remove id' uri' => ¬ (id' = id ∧ uri' = uri)
  | _ => True

/-- A message waits for a peer, and no other row has its id. -/
structure Keeps (db : Database) (m : Message) (uri : String) : Prop where
  holds : db.Holds m uri
  only : ∀ row, db.Stores row → row.id = .text m.id → row = .ofMessage m

namespace Keeps

variable {db db' : Database} {m : Message} {uri : String}

/-- A message that was written is kept for each of its peers. -/
theorem of_write {l : List Instance} {record : Record} {i : Instance}
    (h : write db m l = (.ok record, db')) (hi : i ∈ l) : Keeps db' m i.uri where
  holds := holds_of_write h hi
  only _ hrow hid := eq_of_stores_write h hrow hid

/-- A message is kept where it still waits and no row came in under its id. -/
theorem of_holds (h : Keeps db m uri) (hholds : db'.Holds m uri)
    (hrows : ∀ row, db'.Stores row → db.Stores row ∨ row.id ≠ .text m.id) : Keeps db' m uri where
  holds := hholds
  only row hrow hid := h.only row ((hrows row hrow).resolve_right (absurd hid)) hid

/-- A message is kept through every request that spares it. -/
theorem serve (h : Keeps db m uri) (husable : Usable db) {request : Request}
    (hspares : request.Spares m.id uri) : Keeps (db.serve request).2 m uri := by
  cases request with
  | write m' l =>
    show Keeps (write db m' l).2 m uri
    cases hwrite : write db m' l with
    | mk result db' =>
      cases result with
      | error fault => exact write_eq_error hwrite ▸ h
      | ok record =>
        refine h.of_holds (holds_write hwrite (Ne.symm hspares) h.holds) fun row hrow ↦ ?_
        rcases stores_of_write hwrite hrow with rfl | hbefore
        · exact Or.inr fun hid ↦ hspares (Cell.text.inj hid)
        · exact Or.inl hbefore
  | remove id' uri' =>
    obtain ⟨messages, targets, hm, ht, -⟩ := exists_load_iff.1 husable.loads
    have hremove := remove_of_tables id' uri' hm ht
    show Keeps (remove db id' uri').2 m uri
    rw [hremove]
    refine h.of_holds (holds_remove hremove ?_ h.holds) fun row hrow ↦
      Or.inl (stores_of_remove hremove hrow)
    rintro ⟨rfl, rfl⟩
    exact hspares ⟨rfl, rfl⟩
  | load =>
    obtain ⟨records, db', hload⟩ := husable.loads
    show Keeps (Store.load db).2 m uri
    rw [hload]
    exact h.of_holds (holds_load hload h.holds) fun row hrow ↦ Or.inl (stores_of_load hload hrow)
  | count => exact h
  | countByTarget => exact h
  | reopen =>
    rw [Database.serve, husable.recorded.run_eq]
    exact h

theorem serveAll (h : Keeps db m uri) (husable : Usable db) {requests : List Request}
    (hspared : ∀ request ∈ requests, request.Spares m.id uri) :
    Keeps (db.serveAll requests) m uri := by
  induction requests generalizing db with
  | nil => exact h
  | cons request rest ih =>
    exact ih (h.serve husable (hspared request List.mem_cons_self)) (husable.serve request)
      fun r hr ↦ hspared r (List.mem_cons_of_mem _ hr)

/-- What is loaded under the id of a message that is kept is the message, for the peer among
others. -/
theorem load {records : List Record} (h : Keeps db m uri) (hload : load db = (.ok records, db'))
    (hyear : DateText.FourDigitYear m.date) :
    (∃ r ∈ records, r.message.id = m.id ∧ ∃ i ∈ r.targets, i.uri = uri) ∧
      ∀ r ∈ records, r.message.id = m.id → r.message = m.asRead := by
  constructor
  · obtain ⟨r, hr, hmessage, hpeer⟩ := mem_load_of_holds hload hyear h.holds
    exact ⟨r, hr, by rw [hmessage, Message.id_asRead], hpeer⟩
  · intro r hr hid
    obtain ⟨row, typed, hrow, htyped, hmessage, hrowId⟩ := row_of_mem_load hload hr
    obtain rfl := h.only row hrow (by rw [id_of_typed htyped, ← hrowId, hid])
    obtain rfl : typed = .ofMessage m := Except.ok.inj (htyped.symm.trans (typed_written m))
    exact Option.some.inj (hmessage.symm.trans (message?_written hyear))

end Keeps

end PeerRelay.Store
