import PeerRelay.Proofs.Store.Refinement
import PeerRelay.Proofs.Store.Transactions
import PeerRelay.Proofs.Text.Bytes

/-!
# The tables belong together

A message is stored exactly while it waits for a peer, although no constraint of the tables says
so: each operation sees to it by itself. The states that the operations reach, whether they succeed
or break off (`Reached`), therefore represent a backlog, whose entries cannot be without peers. An
entry waits for a part of the peers with which its message was last written, in their order
(`Reached.represents`). Writing puts the whole list there, a removal thins it out, and what fails
leaves it alone.

The three ways of reading look at one table or both. They agree because each of them answers what
the backlog answers. What is sorted by the database is sorted by bytes, which for texts is their own
order.
-/

namespace PeerRelay.Store

open Calendar

/-- The states that a store reaches from nothing by writing, removing and loading, together with the
peers with which each message was last written. An update may fail, and loading may be broken off
while it deletes messages without peers. -/
inductive Reached : Database → (String → List Instance) → Prop
  | fresh : Reached .fresh fun _ ↦ []
  | written {db left lists m l fails record} (h : Reached db lists)
      (hyear : DateText.FourDigitYear m.date)
      (hwrite : write db m l fails = (.ok record, left)) :
      Reached left (Function.update lists m.id l)
  | removed {db left lists id uri fails} (h : Reached db lists)
      (hremove : remove db id uri fails = (.ok (), left)) : Reached left lists
  | failed {db left lists u fails fault} (h : Reached db lists)
      (hfails : Update.run db fails u = (.error fault, left)) : Reached left lists
  | loaded {db left lists result} (h : Reached db lists) (hload : load db = (result, left)) :
      Reached left lists
  | brokenOff {db lists read} (h : Reached db lists) (hread : readRows db = .ok read) (n : Nat) :
      Reached (purge db (((read.filter (·.2.isEmpty)).map (·.1.id)).take n)) lists

/-! ### Entries and lists -/

/-- Each entry waits for a part of the peers in the list of its message, in their order. -/
def Backlog.Within (b : Backlog) (lists : String → List Instance) : Prop :=
  ∀ e ∈ b.entries, e.targets.Sublist (distinctByUri (lists e.message.id))

namespace Backlog.Within

variable {b : Backlog} {lists : String → List Instance}

theorem put (h : b.Within lists) (m : Message) {l : List Instance} (hl : l ≠ []) :
    (b.put (.ofWrite m l hl)).Within (Function.update lists m.id l) := by
  intro e he
  rcases Backlog.mem_putEntry.1 he with rfl | ⟨he, hne⟩
  · show (Entry.ofWrite m l hl).targets.Sublist (distinctByUri (Function.update lists m.id l m.id))
    rw [Function.update_self, Entry.targets_ofWrite]
  · rw [Function.update_of_ne (show e.message.id ≠ m.id from hne)]
    exact h e he

theorem remove (h : b.Within lists) (id uri : String) : (b.remove id uri).Within lists := by
  intro e' he'
  rcases Backlog.mem_removeTarget.1 he' with ⟨he, -⟩ | ⟨e, he, -, hleft⟩
  · exact h e' he
  · obtain ⟨hmessage, htargets⟩ := Entry.without_eq_some hleft
    rw [hmessage, htargets]
    exact List.filter_sublist.trans (h e he)

end Backlog.Within

/-! ### Every state represents a backlog -/

section Steps

variable {db left : Database} {b : Backlog} {fails : Nat → Bool}

theorem Represents.tables {messages : List MessageRow} {targets : List TargetRow}
    (h : Represents db b) (hm : db.messages = some messages) (ht : db.targets = some targets) :
    messages = (b.entries.map fun e ↦ .ofMessage e.message) ∧ Lists targets b.entries := by
  obtain ⟨targets', ht', hlists⟩ := h.targets
  obtain rfl : targets = targets' := Option.some.inj (ht.symm.trans ht')
  exact ⟨Option.some.inj (hm.symm.trans h.messages), hlists⟩

/-- A write that succeeds was for some peer, and puts an entry for it. -/
theorem Represents.of_write {m : Message} {l : List Instance} {record : Record}
    (h : Represents db b) (hyear : DateText.FourDigitYear m.date)
    (hwrite : write db m l fails = (.ok record, left)) :
    ∃ hl : l ≠ [], Represents left (b.put (.ofWrite m l hl)) := by
  obtain ⟨-, messages, targets, hm, ht, rfl⟩ := write_eq_ok hwrite
  obtain ⟨rfl, hlists⟩ := h.tables hm ht
  cases l with
  | nil =>
    rw [write, distinctByUri] at hwrite
    cases hwrite
  | cons i rest => exact ⟨List.cons_ne_nil i rest, h.written hyear hlists⟩

theorem Represents.of_remove {id uri : String} (h : Represents db b)
    (hremove : Store.remove db id uri fails = (.ok (), left)) :
    Represents left (b.remove id uri) := by
  obtain ⟨messages, targets, hm, ht, rfl⟩ := remove_eq_ok hremove
  obtain ⟨rfl, hlists⟩ := h.tables hm ht
  exact h.removed hlists id uri

end Steps

section Reached

variable {db : Database} {lists : String → List Instance}

/-- A state that is reached has the keys of its tables and represents a backlog, whose entries wait
for peers that their messages were last written with. -/
theorem Reached.represents (h : Reached db lists) :
    db.Keyed ∧ ∃ b, Represents db b ∧ b.Within lists := by
  induction h with
  | fresh => exact ⟨keyed_fresh, .empty, represents_fresh, fun e he ↦ absurd he List.not_mem_nil⟩
  | @written db left lists m l fails record _ hyear hwrite ih =>
    obtain ⟨keyed, b, hb, hwithin⟩ := ih
    obtain ⟨hl, hleft⟩ := hb.of_write hyear hwrite
    obtain ⟨-, messages, targets, hm, ht, rfl⟩ := write_eq_ok hwrite
    exact ⟨keyed_written keyed hm ht (uris_distinctByUri_nodup l), _, hleft, hwithin.put m hl⟩
  | @removed db left lists id uri fails _ hremove ih =>
    obtain ⟨keyed, b, hb, hwithin⟩ := ih
    have hleft := hb.of_remove hremove
    obtain ⟨messages, targets, hm, ht, rfl⟩ := remove_eq_ok hremove
    exact ⟨keyed_removed keyed hm ht, _, hleft, hwithin.remove id uri⟩
  | failed _ hfails ih =>
    rw [Update.run_eq_error hfails]
    exact ih
  | loaded _ hload ih =>
    obtain ⟨keyed, b, hb, hwithin⟩ := ih
    obtain ⟨-, rfl⟩ := Prod.mk.inj (hb.load.symm.trans hload)
    exact ⟨keyed, b, hb, hwithin⟩
  | brokenOff _ hread n ih =>
    obtain ⟨keyed, b, hb, hwithin⟩ := ih
    rw [hb.orphans hread, List.take_nil, purge_nil]
    exact ⟨keyed, b, hb, hwithin⟩

/-! ### What a backlog says about the tables -/

/-- The tables belong together. -/
structure Consistent (messages : List MessageRow) (targets : List TargetRow)
    (lists : String → List Instance) : Prop where
  /-- Every message waits for a peer. -/
  awaited : ∀ row ∈ messages, ∃ t ∈ targets, row.id = .text t.messageId
  /-- Every peer is one that a message waits for. -/
  owned : ∀ t ∈ targets, ∃ row ∈ messages, row.id = .text t.messageId
  /-- No message waits for a URI twice. -/
  distinct : (targets.map fun t ↦ (t.messageId, t.uri)).Nodup
  /-- By their positions, all of them different, the peers of a message come in the order in which
  it was last written for them. -/
  inOrder : ∀ id, ∃ l, Listing (targetsOf id targets) l ∧ l.Sublist (distinctByUri (lists id))

/-- The answers of the three ways of reading agree, and loading deletes nothing. -/
structure ReadsAgree (db : Database) (records : List Record) (counts : List (String × Nat)) :
    Prop where
  load : Store.load db = (.ok records, db)
  count : Store.count db = .ok records.length
  countByTarget : Store.countByTarget db = .ok counts
  /-- Each URI is listed once, in the order of the bytes. -/
  ascending : counts.Pairwise fun a b ↦ Text.utf8 a.1 < Text.utf8 b.1
  /-- The URIs that are listed are those in the records, each with the number of its records. -/
  mem_counts : ∀ uri n, (uri, n) ∈ counts ↔
    (∃ r ∈ records, ∃ i ∈ r.targets, i.uri = uri) ∧
      n = records.countP fun r ↦ r.targets.any (·.uri = uri)

variable {b : Backlog} {targets : List TargetRow} {entries : List Entry}

theorem Lists.exists_row (h : Lists targets entries) {e : Entry} (he : e ∈ entries) :
    ∃ t ∈ targets, t.messageId = e.message.id := by
  obtain ⟨t, ht⟩ := List.exists_mem_of_ne_nil _ ((h.rows e he).ne_nil_iff.2 e.targets_ne_nil)
  obtain ⟨hmem, hid⟩ := List.mem_filter.1 ht
  exact ⟨t, hmem, of_decide_eq_true hid⟩

/-- What is listed by position under an id is what its entry waits for, or nothing. -/
theorem Lists.listing (h : Lists targets b.entries) (hwithin : b.Within lists) (id : String) :
    ∃ l, Listing (targetsOf id targets) l ∧ l.Sublist (distinctByUri (lists id)) := by
  by_cases hentry : ∃ e ∈ b.entries, e.message.id = id
  · obtain ⟨e, he, rfl⟩ := hentry
    have hrows := h.rows e he
    rw [targetsOf_eq_rowsOf hrows.ascending]
    exact ⟨e.targets, hrows, hwithin e he⟩
  · have hnone : targetsOf id targets = [] := by
      refine List.eq_nil_iff_forall_not_mem.2 fun row hrow ↦ hentry ?_
      obtain ⟨hmem, hid⟩ := mem_targetsOf.1 hrow
      obtain ⟨e, he, howner⟩ := h.owner row hmem
      exact ⟨e, he, howner.trans hid⟩
    rw [hnone]
    exact ⟨[], ⟨.nil, .nil⟩, List.nil_sublist _⟩

theorem Represents.consistent (h : Represents db b) (keyed : db.Keyed)
    (hwithin : b.Within lists) :
    ∃ messages targets, db.messages = some messages ∧ db.targets = some targets ∧
      Consistent messages targets lists := by
  obtain ⟨targets, ht, hlists⟩ := h.targets
  refine ⟨_, targets, h.messages, ht, ?_⟩
  constructor
  case awaited =>
    intro row hrow
    obtain ⟨e, he, rfl⟩ := List.mem_map.1 hrow
    obtain ⟨t, hmem, hid⟩ := hlists.exists_row he
    exact ⟨t, hmem, congrArg Cell.text hid.symm⟩
  case owned =>
    intro t hmem
    obtain ⟨e, he, hid⟩ := hlists.owner t hmem
    exact ⟨_, List.mem_map.2 ⟨e, he, rfl⟩, congrArg Cell.text hid⟩
  case distinct => exact keyed.targets targets ht
  case inOrder => exact hlists.listing hwithin

theorem Backlog.mem_uris {uri : String} :
    uri ∈ b.uris ↔ ∃ r ∈ b.entries.map Entry.record, ∃ i ∈ r.targets, i.uri = uri := by
  rw [Backlog.uris, List.mem_flatMap]
  constructor
  · rintro ⟨e, he, huri⟩
    exact ⟨e.record, List.mem_map_of_mem he, List.mem_map.1 huri⟩
  · rintro ⟨r, hr, huri⟩
    obtain ⟨e, he, rfl⟩ := List.mem_map.1 hr
    exact ⟨e, he, List.mem_map.2 huri⟩

theorem Represents.readsAgree (h : Represents db b) :
    ReadsAgree db (b.entries.map Entry.record) b.countByTarget where
  load := h.load
  count := by
    rw [h.count, List.length_map]
  countByTarget := h.countByTarget
  ascending := by
    have hascending := (Text.TextSet.ofList b.uris).ascending.imp Text.utf8_lt
    exact List.pairwise_map.2 (List.pairwise_map.2 hascending)
  mem_counts uri n := by
    have hlisted : uri ∈ (Text.TextSet.ofList b.uris).toList ↔ uri ∈ b.uris := by
      rw [Text.TextSet.toList, Text.TextMap.mem_keys_iff, Text.TextSet.find?_ofList]
      split <;> simp_all
    rw [Backlog.countByTarget, List.mem_map, List.countP_map, ← Backlog.mem_uris, ← hlisted]
    constructor
    · rintro ⟨uri', huri, heq⟩
      obtain ⟨rfl, rfl⟩ := Prod.mk.inj heq
      exact ⟨huri, rfl⟩
    · rintro ⟨huri, rfl⟩
      exact ⟨uri, huri, rfl⟩

/-- **A message is stored exactly while it waits for a peer, and all ways of reading agree.** In
every state that a store reaches by updates that succeed or fail and by loading, every message has a
peer to reach and every peer belongs to a message; no message has two rows for one URI; and by
position its peers are in the order in which it was last written for them. So as many messages are
counted as are loaded, loading deletes nothing, and the counts by peer list each URI that occurs in
a loaded record once, by the order of the bytes, with the number of loaded records that it occurs
in. -/
theorem consistent_of_reached (h : Reached db lists) :
    (∃ messages targets, db.messages = some messages ∧ db.targets = some targets ∧
        Consistent messages targets lists) ∧
      ∃ records counts, ReadsAgree db records counts := by
  obtain ⟨keyed, b, hb, hwithin⟩ := h.represents
  exact ⟨hb.consistent keyed hwithin, _, _, hb.readsAgree⟩

end Reached

/-- Two peers of one URI and one of another. -/
def twice : List Instance := [⟨"b", "http://b"⟩, ⟨"a", "http://a"⟩, ⟨"c", "http://b"⟩]

/-- A store with a message for these peers. -/
def stored : Database :=
  (write .fresh default twice).2

/-- The same store, less one of the peers. -/
def thinned : Database :=
  (remove stored "" "http://a").2

/-- The message was written again in between, and the second of its new peers was not taken. -/
theorem consistent_of_thinned :
    let lists := Function.update (fun _ ↦ []) "" twice
    Reached thinned lists ∧
      (∃ messages targets, thinned.messages = some messages ∧ thinned.targets = some targets ∧
        Consistent messages targets lists) ∧
      ∃ counts, ReadsAgree thinned [⟨default, [⟨"b", "http://b"⟩]⟩] counts := by
  intro lists
  have hyear : DateText.FourDigitYear (default : Message).date := by decide
  have hwrite : write .fresh default twice = (.ok ⟨default, distinctByUri twice⟩, stored) := rfl
  have hfails : Update.run stored (· = 3) (.write default [⟨"d", "http://d"⟩, ⟨"e", "http://e"⟩]) =
      (.error .engine, stored) := rfl
  have hremove : remove stored "" "http://a" = (.ok (), thinned) := rfl
  have hload : load thinned = (.ok [⟨default, [⟨"b", "http://b"⟩]⟩], thinned) := by
    decide +kernel
  have hthinned : Reached thinned lists :=
    (((Reached.fresh.written hyear hwrite).failed hfails).removed hremove).loaded hload
  obtain ⟨htables, records, counts, hagree⟩ := consistent_of_reached hthinned
  obtain rfl := Except.ok.inj (Prod.mk.inj (hload.symm.trans hagree.load)).1
  exact ⟨hthinned, htables, counts, hagree⟩

end PeerRelay.Store
