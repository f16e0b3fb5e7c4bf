import PeerRelay.Proofs.Wire.Passing
import PeerRelay.Recovery.Window

/-!
# The answer to a recovery request

A window that travels is cut to milliseconds, as its dates are, and a leap second in the middle of a
minute becomes the second behind it. What is read of a message is the window that was written into
it, read in this way (`read_of_bounds`), and it is written with the same texts, so an answer that
repeats what was read loses nothing more. Metadata are appended, and each
of the four keys keeps a value of its own (`find?_request`, `find?_finished`).

The answer is addressed to one instance, and a set with a member does not stand for everyone. So
exactly the instance that asked is a receiver of it (`answer_for_request`).

The dates of the two messages are those of the clocks. A clock that shows a year with a sign dates a
message that no peer accepts; this is the only way in which the request or the answer gets lost.
-/

namespace PeerRelay

open Calendar

namespace Message

variable (m : Message) (key value k : String)

/-- A value is appended to its key and to no other. -/
theorem find?_withMetadata : (m.withMetadata key value).metadata.find? k =
    if k = key then some ((m.metadata.find? key).getD [] ++ [value]) else m.metadata.find? k :=
  Text.TextMap.find?_alter _ _ _ _

end Message

namespace Received

variable {r : Received}

/-- A message is for the instances that it is addressed to, and for everyone if there are none. -/
theorem isReceiver_iff {receivers : List String} {uri : String}
    (h : r.message.receivers = Text.TextSet.ofList receivers) :
    r.isReceiver uri = true ↔ receivers = [] ∨ uri ∈ receivers := by
  rw [isReceiver, h, Bool.or_eq_true, Text.TextSet.isEmpty_ofList, Text.TextSet.contains_ofList]

theorem metadata?_of_find? {key value : String} {values : List String}
    (h : r.message.metadata.find? key = some (value :: values)) :
    r.metadata? key = some value := by
  rw [metadata?, h]
  rfl

/-- A date whose year has no sign is read as its text tells it. -/
theorem metadataDate_eq {key : String} {t : Instant} (hyear : DateText.FourDigitYear t)
    (h : r.metadata? key = some (DateText.encode t)) :
    r.metadataDate key = .ok t.asRead := by
  have hvalue : r.metadataValue key = .ok (DateText.encode t) := by rw [metadataValue, h]
  rw [metadataDate, hvalue, ok_bind, readDate, DateText.decode_encode hyear]

end Received

namespace Recovery.Window

variable {w : Window} {r : Received}

/-- The window without what is finer than a millisecond. -/
def cutToMillis (w : Window) : Window :=
  ⟨w.dateMin.cutToMillis, w.dateMax.cutToMillis⟩

/-- The window as its text is read. -/
def asRead (w : Window) : Window :=
  ⟨w.dateMin.asRead, w.dateMax.asRead⟩

@[simp] theorem asRead_asRead (w : Window) : w.asRead.asRead = w.asRead :=
  congrArg₂ Window.mk (Instant.asRead_asRead _) (Instant.asRead_asRead _)

/-- Neither bound has a year with a sign. -/
def FourDigitYears (w : Window) : Prop :=
  DateText.FourDigitYear w.dateMin ∧ DateText.FourDigitYear w.dateMax

instance (w : Window) : Decidable w.FourDigitYears :=
  inferInstanceAs (Decidable (_ ∧ _))

theorem FourDigitYears.asRead (h : w.FourDigitYears) : w.asRead.FourDigitYears :=
  ⟨DateText.fourDigitYear_asRead.2 h.1, DateText.fourDigitYear_asRead.2 h.2⟩

/-- Both bounds have texts of their own: no year has a sign, and leap seconds close their minutes.
-/
structure InDomain (w : Window) : Prop where
  dateMin : DateText.InDomain w.dateMin
  dateMax : DateText.InDomain w.dateMax

instance (w : Window) : Decidable w.InDomain :=
  decidable_of_iff (DateText.InDomain w.dateMin ∧ DateText.InDomain w.dateMax)
    ⟨fun h ↦ ⟨h.1, h.2⟩, fun h ↦ ⟨h.dateMin, h.dateMax⟩⟩

theorem InDomain.years (h : w.InDomain) : w.FourDigitYears :=
  ⟨h.dateMin.year, h.dateMax.year⟩

theorem InDomain.asRead (h : w.InDomain) : w.asRead = w.cutToMillis := by
  rw [Window.asRead, h.dateMin.closes.asRead, h.dateMax.closes.asRead, Window.cutToMillis]

/-- A window is read of a message that has its bounds as the first values of their keys. -/
theorem read_of_bounds {mins maxs : List String} (hyears : w.FourDigitYears)
    (hmin : r.message.metadata.find? dateMinKey = some (DateText.encode w.dateMin :: mins))
    (hmax : r.message.metadata.find? dateMaxKey = some (DateText.encode w.dateMax :: maxs)) :
    read r = .ok w.asRead := by
  rw [read, Received.metadataDate_eq hyears.1 (Received.metadata?_of_find? hmin),
    Received.metadataDate_eq hyears.2 (Received.metadata?_of_find? hmax)]
  rfl

/-! ### What the two messages carry -/

/-- The bounds are the only values of a request. -/
theorem find?_request (w : Window) (stamp : Message.Stamp) (receivers : List String) (k : String) :
    (w.request stamp receivers).metadata.find? k =
      if k = dateMaxKey then some [DateText.encode w.dateMax]
      else if k = dateMinKey then some [DateText.encode w.dateMin] else none := by
  rw [request, inscribe, Message.withMetadataDate, Message.withMetadataDate]
  simp only [Message.find?_withMetadata]
  rfl

/-- The bounds, the request and the instance that asked are the only values of an answer. -/
theorem find?_finished (w : Window) (stamp : Message.Stamp) (r : Received) (k : String) :
    (w.finished stamp r).metadata.find? k =
      if k = requestSourceKey then some [r.origin]
      else if k = requestIdKey then some [r.message.id]
      else if k = dateMaxKey then some [DateText.encode w.dateMax]
      else if k = dateMinKey then some [DateText.encode w.dateMin] else none := by
  rw [finished, inscribe, Message.withMetadataDate, Message.withMetadataDate]
  simp only [Message.find?_withMetadata]
  rfl

/-- What arrives with the metadata of a request is read as one for its window. The same goes for an
answer. -/
theorem read_of_request {stamp : Message.Stamp} {receivers : List String}
    (hyears : w.FourDigitYears)
    (h : r.message.metadata = (w.request stamp receivers).metadata) :
    read r = .ok w.asRead := by
  have hmin : r.message.metadata.find? dateMinKey = some [DateText.encode w.dateMin] := by
    rw [h, find?_request, if_neg (by decide), if_pos rfl]
  have hmax : r.message.metadata.find? dateMaxKey = some [DateText.encode w.dateMax] := by
    rw [h, find?_request, if_pos rfl]
  exact read_of_bounds hyears hmin hmax

section Finished

variable {stamp : Message.Stamp} {asked : Received}
  (h : r.message.metadata = (w.finished stamp asked).metadata)

include h

theorem read_of_finished (hyears : w.FourDigitYears) : read r = .ok w.asRead := by
  have hmin : r.message.metadata.find? dateMinKey = some [DateText.encode w.dateMin] := by
    rw [h, find?_finished, if_neg (by decide), if_neg (by decide), if_neg (by decide), if_pos rfl]
  have hmax : r.message.metadata.find? dateMaxKey = some [DateText.encode w.dateMax] := by
    rw [h, find?_finished, if_neg (by decide), if_neg (by decide), if_pos rfl]
  exact read_of_bounds hyears hmin hmax

theorem requestId_of_finished : r.metadata? requestIdKey = some asked.message.id := by
  have hid : r.message.metadata.find? requestIdKey = some [asked.message.id] := by
    rw [h, find?_finished, if_neg (by decide), if_pos rfl]
  exact Received.metadata?_of_find? hid

theorem requestSource_of_finished : r.metadata? requestSourceKey = some asked.origin := by
  have hsource : r.message.metadata.find? requestSourceKey = some [asked.origin] := by
    rw [h, find?_finished, if_pos rfl]
  exact Received.metadata?_of_find? hsource

end Finished

/-- What arrives of a request. -/
theorem carried_of_request {receivers : List String} {source : Option String} {sender : String}
    {stamp : Message.Stamp}
    (h : (Wire.Body.ofMessage { w.request stamp receivers with source } sender).receive = .ok r) :
    r.message.metadata = (w.request stamp receivers).metadata ∧ r.message.id = stamp.id ∧
      r.origin = source.getD sender := by
  obtain ⟨-, rfl⟩ := Wire.Body.receive_ofMessage_eq_ok.1 h
  exact ⟨rfl, rfl, rfl⟩

/-- What arrives of an answer. -/
theorem carried_of_finished {stamp : Message.Stamp} {asked : Received} {responder : String}
    (h : (Wire.Body.ofMessage (w.finished stamp asked) responder).receive = .ok r) :
    r.message.metadata = (w.finished stamp asked).metadata ∧
      r.message.receivers = Text.TextSet.ofList [asked.origin] := by
  obtain ⟨-, rfl⟩ := Wire.Body.receive_ofMessage_eq_ok.1 h
  exact ⟨rfl, rfl⟩

/-- **An answer answers its request.** A request for a window is sent by an instance, under a source
if it has one; the source, or else the sender, is who asked. The request is accepted exactly if the
clock dated it to a year without a sign, and it is read as one for the window, which is cut to
milliseconds if leap seconds of its bounds close their minutes (`InDomain.asRead`). The same goes
for the answer, which anybody may send. It is read as one for exactly that window, it names the
request and who asked, and it is for the instance that asked and for nobody else. -/
theorem answer_for_request (w : Window) (stamp : Message.Stamp) (receivers : List String)
    (source : Option String) (sender : String) (hyears : w.FourDigitYears) :
    ((∃ r, (Wire.Body.ofMessage { w.request stamp receivers with source } sender).receive =
        .ok r) ↔ DateText.FourDigitYear stamp.date) ∧
      ∀ r, (Wire.Body.ofMessage { w.request stamp receivers with source } sender).receive =
          .ok r →
        ∃ asked, read r = .ok asked ∧ asked = w.asRead ∧
          ∀ (stamp' : Message.Stamp) (responder : String),
            ((∃ n, (Wire.Body.ofMessage (asked.finished stamp' r) responder).receive = .ok n) ↔
              DateText.FourDigitYear stamp'.date) ∧
            ∀ n, (Wire.Body.ofMessage (asked.finished stamp' r) responder).receive = .ok n →
              read n = .ok asked ∧
              n.metadata? requestIdKey = some stamp.id ∧
              n.metadata? requestSourceKey = some (source.getD sender) ∧
              ∀ uri, n.isReceiver uri = true ↔ uri = source.getD sender := by
  refine ⟨Wire.Body.exists_receive_iff, fun r hr ↦ ?_⟩
  obtain ⟨hmetadata, hid, horigin⟩ := carried_of_request hr
  refine ⟨_, read_of_request hyears hmetadata, rfl, fun stamp' responder ↦
    ⟨Wire.Body.exists_receive_iff, fun n hn ↦ ?_⟩⟩
  obtain ⟨hmetadata', hreceivers⟩ := carried_of_finished hn
  refine ⟨?_, hid ▸ requestId_of_finished hmetadata',
    horigin ▸ requestSource_of_finished hmetadata', fun uri ↦ ?_⟩
  · rw [read_of_finished hmetadata' hyears.asRead, asRead_asRead]
  · rw [Received.isReceiver_iff hreceivers, horigin]
    simp

/-- A window that begins within a leap second, with bounds finer than a millisecond. -/
def leapWindow : Window where
  dateMin := Wire.Body.leapMessage.date
  dateMax := ⟨1483228800, 999999999, by decide, by decide, by decide⟩

/-- A request that names an instance twice and is relayed for another one. -/
theorem answer_for_request_of_leapWindow :
    leapWindow.FourDigitYears ∧ leapWindow.asRead = leapWindow.cutToMillis ∧
      ∃ r n, (Wire.Body.ofMessage { leapWindow.request ⟨"1", .epoch⟩ ["http://b", "http://b"] with
          source := some "http://z" } "http://a").receive = .ok r ∧
        (Wire.Body.ofMessage (leapWindow.asRead.finished ⟨"2", .epoch⟩ r) "http://b").receive =
          .ok n ∧
        read n = .ok leapWindow.asRead ∧ n.metadata? requestIdKey = some "1" ∧
        n.metadata? requestSourceKey = some "http://z" ∧
        ∀ uri, n.isReceiver uri = true ↔ uri = "http://z" := by
  have hyears : leapWindow.FourDigitYears := by decide
  obtain ⟨haccepted, hanswered⟩ := answer_for_request leapWindow ⟨"1", .epoch⟩
    ["http://b", "http://b"] (some "http://z") "http://a" hyears
  obtain ⟨r, hr⟩ := haccepted.2 (by decide)
  obtain ⟨_, -, rfl, hanswer⟩ := hanswered r hr
  obtain ⟨haccepted', hread⟩ := hanswer ⟨"2", .epoch⟩ "http://b"
  obtain ⟨n, hn⟩ := haccepted'.2 (by decide)
  exact ⟨hyears, InDomain.asRead (by decide), r, n, hr, hn, hread n hn⟩

end Recovery.Window

end PeerRelay
