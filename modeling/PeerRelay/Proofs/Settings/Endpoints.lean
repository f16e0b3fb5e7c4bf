import Mathlib.Data.List.DropRight
import PeerRelay.Proofs.Settings.Soundness
import PeerRelay.Wire.Endpoint

/-!
# Endpoints of a sound configuration

A configuration is sound if and only if all its URIs are URLs, no two of them are the same text, and
the queues have room (`validate_eq_ok_iff`). An endpoint does not depend on the slashes at the end
of a URI, and on nothing less (`endpoint_eq_iff`). So of the instances of a sound configuration two
have one endpoint exactly if their URIs differ in these slashes only (`endpoints_distinct_iff`).
-/

namespace PeerRelay

/-! ### Sound configurations -/

namespace Settings

/-- A configuration is sound if all its URIs are URLs, no two of them are the same, and the queues
have room. -/
theorem validate_eq_ok_iff {c : Config} : c.validate = .ok () ↔
    (∀ i ∈ c.self :: c.peers, Url.check i.uri = .ok ()) ∧
      ((c.self :: c.peers).map (·.uri)).Nodup ∧
      0 < c.limits.storeCapacity ∧ 0 < c.limits.sendCapacity := by
  have hself : (∀ peer ∈ c.peers, peer.uri ≠ c.self.uri) ↔ c.self.uri ∉ c.peers.map (·.uri) := by
    simp only [List.mem_map, not_exists, not_and, ne_eq]
  rw [Config.validate, validateWith_eq_ok, List.forall_mem_cons, List.map_cons, List.nodup_cons,
    ← hself]
  constructor
  · rintro ⟨hown, ⟨hpeers, hnotSelf, hdistinct⟩, hstore, hsend⟩
    exact ⟨⟨hown, hpeers⟩, ⟨hnotSelf, hdistinct⟩, hstore, hsend⟩
  · rintro ⟨⟨hown, hpeers⟩, ⟨hnotSelf, hdistinct⟩, hstore, hsend⟩
    exact ⟨hown, ⟨hpeers, hnotSelf, hdistinct⟩, hstore, hsend⟩

end Settings

/-! ### Endpoints -/

namespace Wire

/-- The characters of a URI without the slashes at its end. -/
def stem (uri : String) : List Char :=
  uri.toList.rdropWhile (· == '/')

/-- One of two URIs is the other with slashes behind it. -/
def SlashApart (u v : String) : Prop :=
  ∃ n, u.toList ++ List.replicate (n + 1) '/' = v.toList ∨
    v.toList ++ List.replicate (n + 1) '/' = u.toList

/-- The longer one of the two ends with a slash. -/
theorem SlashApart.getLast? {u v : String} (h : SlashApart u v) :
    u.toList.getLast? = some '/' ∨ v.toList.getLast? = some '/' := by
  have hlast : ∀ (l : List Char) (n : Nat),
      (l ++ List.replicate (n + 1) '/').getLast? = some '/' := by
    intro l n
    rw [List.replicate_succ', ← List.append_assoc, List.getLast?_concat]
  obtain ⟨n, heq | heq⟩ := h
  · exact Or.inr (heq ▸ hlast _ n)
  · exact Or.inl (heq ▸ hlast _ n)

/-- A URI is its stem with slashes behind it. -/
theorem exists_stem_append (uri : String) :
    ∃ n, stem uri ++ List.replicate n '/' = uri.toList := by
  have hslashes : ∀ c ∈ uri.toList.rtakeWhile (· == '/'), c = '/' :=
    fun c hc ↦ eq_of_beq (List.mem_rtakeWhile_imp (p := (· == '/')) hc)
  refine ⟨(uri.toList.rtakeWhile (· == '/')).length, ?_⟩
  rw [stem, ← List.eq_replicate_of_mem hslashes, List.rdropWhile_append_rtakeWhile]

theorem rdropWhile_append_replicate (l : List Char) (n : Nat) :
    (l ++ List.replicate n '/').rdropWhile (· == '/') = l.rdropWhile (· == '/') := by
  induction n with
  | zero => rw [List.replicate_zero, List.append_nil]
  | succ n ih =>
    rw [List.replicate_succ', ← List.append_assoc, List.rdropWhile_concat_pos _ _ _ rfl, ih]

theorem endpoint_eq_iff_stem {u v : String} : endpoint u = endpoint v ↔ stem u = stem v := by
  rw [← String.toList_inj, endpoint, endpoint, String.toList_append, String.toList_append,
    List.append_left_inj, String.toList_ofList, String.toList_ofList]
  rfl

/-- The slashes at the end of a URI are all that its endpoint does not tell. -/
theorem endpoint_eq_iff {u v : String} : endpoint u = endpoint v ↔ u = v ∨ SlashApart u v := by
  rw [endpoint_eq_iff_stem]
  constructor
  · intro hstem
    obtain ⟨k, hu⟩ := exists_stem_append u
    obtain ⟨l, hv⟩ := exists_stem_append v
    rw [← hstem] at hv
    rcases Nat.lt_trichotomy k l with hlt | rfl | hlt
    · obtain ⟨n, rfl⟩ := Nat.exists_eq_add_of_lt hlt
      refine Or.inr ⟨n, Or.inl ?_⟩
      rw [← hu, ← hv, List.append_assoc, List.replicate_append_replicate, Nat.add_assoc]
    · exact Or.inl (String.toList_inj.1 (hu.symm.trans hv))
    · obtain ⟨n, rfl⟩ := Nat.exists_eq_add_of_lt hlt
      refine Or.inr ⟨n, Or.inr ?_⟩
      rw [← hu, ← hv, List.append_assoc, List.replicate_append_replicate, Nat.add_assoc]
  · rintro (rfl | ⟨n, heq | heq⟩)
    · rfl
    · rw [stem, stem, ← heq, rdropWhile_append_replicate]
    · rw [stem, stem, ← heq, rdropWhile_append_replicate]

end Wire

/-! ### Who is reached by a configuration -/

open Settings Wire

/-- **A sound configuration reaches each endpoint once, unless it lists one with and without slashes
at its end.** The endpoints of its peers are different, and none of them is that of the instance
itself, exactly if no URI among theirs and its own is another one with slashes behind it. So they
are if no URI ends with a slash. -/
theorem endpoints_distinct_iff {c : Config} (h : c.validate = .ok ()) :
    (((c.peers.map (endpoint ·.uri)).Nodup ∧
        ∀ peer ∈ c.peers, endpoint peer.uri ≠ endpoint c.self.uri) ↔
      (c.self :: c.peers).Pairwise fun i j ↦ ¬ SlashApart i.uri j.uri) ∧
    ((∀ i ∈ c.self :: c.peers, i.uri.toList.getLast? ≠ some '/') →
      (c.self :: c.peers).Pairwise fun i j ↦ ¬ SlashApart i.uri j.uri) := by
  obtain ⟨-, hnodup, -⟩ := validate_eq_ok_iff.1 h
  constructor
  · have hall : ((c.peers.map (endpoint ·.uri)).Nodup ∧
          ∀ peer ∈ c.peers, endpoint peer.uri ≠ endpoint c.self.uri) ↔
        ((c.self :: c.peers).map (endpoint ·.uri)).Nodup := by
      rw [List.map_cons, List.nodup_cons, and_comm]
      simp only [List.mem_map, not_exists, not_and, ne_eq]
    rw [hall, List.Nodup, List.pairwise_map]
    -- the URIs are different, so that endpoints are the same by slashes only
    rw [List.Nodup, List.pairwise_map] at hnodup
    constructor
    · exact fun hendpoints ↦ hendpoints.imp fun hne hslash ↦ hne (endpoint_eq_iff.2 (Or.inr hslash))
    · intro hapart
      refine (hnodup.and hapart).imp fun ⟨hne, hslash⟩ heq ↦ ?_
      exact (endpoint_eq_iff.1 heq).elim hne hslash
  · exact fun hends ↦ List.pairwise_of_forall_mem_list fun i hi j hj hslash ↦
      hslash.getLast?.elim (hends i hi) (hends j hj)

/-- A peer in a directory of the instance, and another one with a port. -/
def distinctConfig : Config where
  peers := [⟨"b", "http://127.0.0.1:8080/b/"⟩, ⟨"c", "http://c:80"⟩]

theorem endpoints_distinct_iff_of_directory :
    distinctConfig.validate = .ok () ∧
      distinctConfig.peers.map (endpoint ·.uri) =
        ["http://127.0.0.1:8080/b/replication/messages", "http://c:80/replication/messages"] ∧
      (distinctConfig.self :: distinctConfig.peers).Pairwise
        fun i j ↦ ¬ SlashApart i.uri j.uri := by
  have hvalid : distinctConfig.validate = .ok () := by decide +kernel
  exact ⟨hvalid, by decide +kernel, (endpoints_distinct_iff hvalid).1.1 (by decide +kernel)⟩

/-- A peer with the URI of the instance itself and a slash behind it. -/
def selfWithSlash : Config where
  peers := [⟨"b", "http://127.0.0.1:8080/"⟩]

/-- A peer that is listed with and without a slash. -/
def peerWithSlash : Config where
  peers := [⟨"b", "http://b"⟩, ⟨"c", "http://b/"⟩]

/-- Slashes at the end of a URI make a sound configuration send to itself, or to a peer twice. -/
theorem endpoints_not_distinct :
    selfWithSlash.validate = .ok () ∧
      selfWithSlash.peers.map (endpoint ·.uri) = [endpoint selfWithSlash.self.uri] ∧
    peerWithSlash.validate = .ok () ∧
      peerWithSlash.peers.map (endpoint ·.uri) =
        ["http://b/replication/messages", "http://b/replication/messages"] := by
  decide +kernel

end PeerRelay
