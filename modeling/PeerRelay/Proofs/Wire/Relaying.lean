import PeerRelay.Proofs.Wire.Passing

/-!
# A message on its way over many hops

The first hop sends a message as it is. Every later one sends a message of its own, to which it
gives the identity, the date and the source of what it received (`relayedThrough`). A hop fills in a
source where there is none, and cuts the date; neither changes anything where a hop did it before.
So the first hop settles where a message stems from (`exists_first`), each further one keeps
it and is accepted (`exists_hop`), and by induction over the hops so does the whole way
(`identity_kept`).

A message of its own may carry any receivers, metadata and payload. Nothing is claimed about these:
what arrives of them is what the last hop put into it.
-/

namespace PeerRelay.Wire

open Calendar

/-- A further hop: the instance that sends a message on, and the message of its own in which it does
so. -/
structure Hop where
  message : Message
  sender : String

/-- What the last of the hops delivers. Each hop relays what the one before delivered, and the way
ends at the first that is refused. -/
def relayedThrough (r : Received) : List Hop → Except Failure Received
  | [] => .ok r
  | hop :: hops => do
    relayedThrough (← (Body.ofMessage (r.relay hop.message) hop.sender).receive) hops

/-- What was received bears the identity of a message that `first` sent, its date as it is read, and
its source, which is `first` if it had none. -/
structure StemsFrom (m : Message) (first : String) (r : Received) : Prop where
  id : r.message.id = m.id
  date : r.message.date = m.date.asRead
  source : r.message.source = some (m.source.getD first)

variable {m : Message} {first : String} {r : Received}

/-- A message is accepted from the instance that sends it first. -/
theorem exists_first (hyear : DateText.FourDigitYear m.date) (first : String) :
    ∃ r, (Body.ofMessage m first).receive = .ok r ∧ StemsFrom m first r ∧ r.sender = first :=
  ⟨_, Body.receive_ofMessage hyear first, ⟨rfl, rfl, rfl⟩, rfl⟩

/-- A hop is accepted and keeps where the message stems from. -/
theorem exists_hop (hyear : DateText.FourDigitYear m.date) (h : StemsFrom m first r) (hop : Hop) :
    ∃ r', (Body.ofMessage (r.relay hop.message) hop.sender).receive = .ok r' ∧
      StemsFrom m first r' ∧ r'.sender = hop.sender := by
  have hcut : DateText.FourDigitYear (r.relay hop.message).date := by
    show DateText.FourDigitYear r.message.date
    rw [h.date]
    exact DateText.fourDigitYear_asRead.2 hyear
  refine ⟨_, Body.receive_ofMessage hcut hop.sender, ⟨h.id, ?_, ?_⟩, rfl⟩
  · -- the date that is cut here was cut by the hops before
    show r.message.date.asRead = m.date.asRead
    rw [h.date, Instant.asRead_asRead]
  · show some (r.message.source.getD hop.sender) = some (m.source.getD first)
    rw [h.source, Option.getD_some]

/-- So do all hops of a way; the last of them is the sender of what arrives. -/
theorem exists_relayedThrough (hyear : DateText.FourDigitYear m.date) (hops : List Hop)
    (h : StemsFrom m first r) :
    ∃ r', relayedThrough r hops = .ok r' ∧ StemsFrom m first r' ∧
      r'.sender = (hops.map (·.sender)).getLastD r.sender := by
  induction hops generalizing r with
  | nil => exact ⟨r, rfl, h, rfl⟩
  | cons hop hops ih =>
    obtain ⟨next, hnext, hstems, hsender⟩ := exists_hop hyear h hop
    obtain ⟨r', harrives, hstems', hlast⟩ := ih hstems
    refine ⟨r', ?_, hstems', ?_⟩
    · rw [relayedThrough, hnext, ok_bind, harrives]
    · rw [hlast, hsender, List.map_cons, List.getLastD_cons]

/-- **A message keeps its identity over any number of hops.** The first sender and every later one
is accepted. What arrives at the end has the id of the message, its date cut to milliseconds, its
source, or else the first sender as its source, and the last sender as its sender. -/
theorem identity_kept (m : Message) (first : String) (hops : List Hop)
    (hdate : DateText.InDomain m.date) :
    ∃ r r', (Body.ofMessage m first).receive = .ok r ∧ relayedThrough r hops = .ok r' ∧
      r'.message.id = m.id ∧ r'.message.date = m.date.cutToMillis ∧
      r'.message.source = some (m.source.getD first) ∧
      r'.sender = (first :: hops.map (·.sender)).getLast (List.cons_ne_nil _ _) := by
  obtain ⟨r, hfirst, hstems, hsender⟩ := exists_first hdate.year first
  obtain ⟨r', harrives, hstems', hlast⟩ := exists_relayedThrough hdate.year hops hstems
  have hcut : r'.message.date = m.date.cutToMillis := hstems'.date.trans hdate.closes.asRead
  refine ⟨r, r', hfirst, harrives, hstems'.id, hcut, hstems'.source, ?_⟩
  rw [hlast, hsender, List.getLast_eq_getLastD]

/-- A message within a leap second goes over three instances, of which the second puts another
source into its own message and the third another date. -/
theorem identity_kept_of_leapMessage :
    DateText.InDomain Body.leapMessage.date ∧
      ∃ r r', (Body.ofMessage Body.leapMessage "http://a").receive = .ok r ∧
        relayedThrough r [⟨{ Body.leapMessage with source := some "http://z" }, "http://b"⟩,
          ⟨default, "http://c"⟩] = .ok r' ∧
        r'.message.id = "\"1\"\n" ∧ r'.message.date = Body.leapMessage.date.cutToMillis ∧
        r'.message.source = some "http://a" ∧ r'.sender = "http://c" :=
  ⟨by decide, identity_kept Body.leapMessage "http://a" _ (by decide)⟩

end PeerRelay.Wire
