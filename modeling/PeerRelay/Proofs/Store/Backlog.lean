import PeerRelay.Proofs.Message.Cut
import PeerRelay.Proofs.Store.Holdings

/-!
# The backlog

What a store is for, without tables: the messages that wait, in the order in which they were
first stored, each with the peers it waits for. An entry without peers or with two peers of one URI
cannot be built, and neither can a backlog with two entries for one id.

The backlog answers the same requests as a store (`Backlog.serve`): a message that waits already
keeps its place when it is written again, an entry goes with the last of its peers, and a message
that is written after its entry has gone is a new one.
-/

namespace PeerRelay

open Calendar

namespace Store

/-! ### Entries -/

/-- A message that waits, as it is read of the store, with the peers it waits for. -/
structure Entry where
  message : Message
  targets : List Instance
  read_again : message.asRead = message
  targets_ne_nil : targets ≠ []
  uris_nodup : (targets.map (·.uri)).Nodup

namespace Entry

/-- The entry of a message that is written for some peers. -/
def ofWrite (m : Message) (targets : List Instance) (h : targets ≠ []) : Entry where
  message := m.asRead
  targets := targets.eraseDupsBy fun i j ↦ i.uri == j.uri
  read_again := m.asRead_asRead
  targets_ne_nil := distinctByUri_eq_eraseDupsBy targets ▸ distinctByUri_ne_nil h
  uris_nodup := distinctByUri_eq_eraseDupsBy targets ▸ uris_distinctByUri_nodup targets

theorem targets_ofWrite {m : Message} {targets : List Instance} (h : targets ≠ []) :
    (ofWrite m targets h).targets = distinctByUri targets :=
  (distinctByUri_eq_eraseDupsBy targets).symm

/-- What is left of an entry when a peer is taken off. -/
def without (e : Entry) (uri : String) : Option Entry :=
  if h : e.targets.filter (·.uri ≠ uri) = [] then none
  else some {
    message := e.message
    targets := e.targets.filter (·.uri ≠ uri)
    read_again := e.read_again
    targets_ne_nil := h
    uris_nodup := e.uris_nodup.sublist (List.filter_sublist.map _) }

/-- The entry as a record. -/
def record (e : Entry) : Record :=
  ⟨e.message, e.targets⟩

/-- Whether the message waits for the peer with the URI. -/
def waitsFor (e : Entry) (uri : String) : Bool :=
  e.targets.any (·.uri = uri)

theorem without_eq_some {e e' : Entry} {uri : String} (h : e.without uri = some e') :
    e'.message = e.message ∧ e'.targets = e.targets.filter (·.uri ≠ uri) := by
  rw [without] at h
  split at h
  · cases h
  · cases h
    exact ⟨rfl, rfl⟩

theorem without_eq_none {e : Entry} {uri : String} :
    e.without uri = none ↔ e.targets.filter (·.uri ≠ uri) = [] := by
  rw [without]
  split
  · rename_i h
    exact iff_of_true rfl h
  · rename_i h
    exact iff_of_false (Option.some_ne_none _) h

end Entry

/-! ### The backlog -/

/-- The messages that wait, the one that was stored first in front. -/
structure Backlog where
  entries : List Entry
  ids_nodup : (entries.map (·.message.id)).Nodup

namespace Backlog

/-- The backlog without entries. -/
def empty : Backlog := ⟨[], List.nodup_nil⟩

/-- The entries with a new one in the place of the entry with its id, or at the end. -/
def putEntry (e : Entry) (entries : List Entry) : List Entry :=
  if e.message.id ∈ entries.map (·.message.id) then
    entries.map fun e' ↦ if e'.message.id = e.message.id then e else e'
  else entries ++ [e]

/-- The entries without a peer of a message. -/
def removeTarget (id uri : String) (entries : List Entry) : List Entry :=
  entries.filterMap fun e ↦ if e.message.id = id then e.without uri else some e

theorem map_id_putEntry (e : Entry) (entries : List Entry) :
    (putEntry e entries).map (·.message.id) =
      if e.message.id ∈ entries.map (·.message.id) then entries.map (·.message.id)
      else entries.map (·.message.id) ++ [e.message.id] := by
  rw [putEntry]
  split
  · rw [List.map_map]
    refine List.map_congr_left fun e' _ ↦ ?_
    show (if e'.message.id = e.message.id then e else e').message.id = _
    split
    · rename_i heq
      exact heq.symm
    · rfl
  · rw [List.map_append]
    rfl

/-- The entries are the new one and those with other ids. -/
theorem mem_putEntry {e e' : Entry} {entries : List Entry} : e' ∈ putEntry e entries ↔
    e' = e ∨ e' ∈ entries ∧ e'.message.id ≠ e.message.id := by
  rw [putEntry]
  split
  · rename_i hold
    obtain ⟨old, hmem, hid⟩ := List.mem_map.1 hold
    rw [List.mem_map]
    constructor
    · rintro ⟨e'', he'', rfl⟩
      by_cases heq : e''.message.id = e.message.id
      · exact Or.inl (if_pos heq)
      · rw [if_neg heq]
        exact Or.inr ⟨he'', heq⟩
    · rintro (rfl | ⟨he', hne⟩)
      · exact ⟨old, hmem, if_pos hid⟩
      · exact ⟨e', he', if_neg hne⟩
  · rename_i hnew
    rw [List.mem_append, List.mem_singleton, or_comm]
    refine or_congr_right (iff_self_and.2 fun he' hid ↦ hnew ?_)
    exact List.mem_map.2 ⟨e', he', hid⟩

/-- The entries are those of other messages, and what is left of the one of the message. -/
theorem mem_removeTarget {id uri : String} {e' : Entry} {entries : List Entry} :
    e' ∈ removeTarget id uri entries ↔ e' ∈ entries ∧ e'.message.id ≠ id ∨
      ∃ e ∈ entries, e.message.id = id ∧ e.without uri = some e' := by
  rw [removeTarget, List.mem_filterMap]
  constructor
  · rintro ⟨e, he, hleft⟩
    split at hleft
    · rename_i hid
      exact Or.inr ⟨e, he, hid, hleft⟩
    · rename_i hid
      cases hleft
      exact Or.inl ⟨he, hid⟩
  · rintro (⟨he', hne⟩ | ⟨e, he, hid, hleft⟩)
    · exact ⟨e', he', if_neg hne⟩
    · exact ⟨e, he, by rw [if_pos hid, hleft]⟩

theorem map_id_removeTarget (id uri : String) (entries : List Entry) :
    ((removeTarget id uri entries).map (·.message.id)).Sublist (entries.map (·.message.id)) := by
  induction entries with
  | nil => exact List.Sublist.refl _
  | cons e rest ih =>
    rw [removeTarget, List.filterMap_cons]
    split
    · exact ih.trans (List.sublist_cons_self _ _)
    · rename_i e' he'
      have hid : e'.message.id = e.message.id := by
        split at he'
        · rw [(Entry.without_eq_some he').1]
        · cases he'
          rfl
      rw [List.map_cons, List.map_cons, hid]
      exact ih.cons_cons _

/-- Puts an entry in the place of the entry with its id, or at the end if there is none. -/
def put (b : Backlog) (e : Entry) : Backlog where
  entries := putEntry e b.entries
  ids_nodup := by
    rw [map_id_putEntry]
    split
    · exact b.ids_nodup
    · rename_i hnew
      exact List.nodup_append_comm.1 (List.nodup_cons.2 ⟨hnew, b.ids_nodup⟩)

/-- Writes a message for some peers, the first of each URI; the answer holds the message as it was
given. -/
def write (b : Backlog) (m : Message) : List Instance → Except StoreFault Record × Backlog
  | [] => (.error (.noTarget m.id), b)
  | i :: rest => (.ok ⟨m, (i :: rest).eraseDupsBy fun i j ↦ i.uri == j.uri⟩,
      b.put (.ofWrite m (i :: rest) (List.cons_ne_nil _ _)))

/-- Takes a peer off a message; the entry goes with the last of its peers. -/
def remove (b : Backlog) (id uri : String) : Backlog where
  entries := removeTarget id uri b.entries
  ids_nodup := b.ids_nodup.sublist (map_id_removeTarget id uri b.entries)

/-- The URIs of all peers that messages wait for. -/
def uris (b : Backlog) : List String :=
  b.entries.flatMap fun e ↦ e.targets.map (·.uri)

/-- For each URI in ascending order the number of messages that wait for it. -/
def countByTarget (b : Backlog) : List (String × Nat) :=
  (Text.TextSet.ofList b.uris).toList.map fun uri ↦ (uri, b.entries.countP (·.waitsFor uri))

end Backlog

end Store

end PeerRelay
