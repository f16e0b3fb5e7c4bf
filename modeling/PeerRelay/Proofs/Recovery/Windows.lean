import PeerRelay.Proofs.Recovery.Answers
import PeerRelay.Recovery.Request

/-!
# Windows after they have travelled

The bounds of a window are cut to milliseconds when a request is written, the upper one as well.
For dates of millisecond precision, which is all that travels or is stored, this loses nothing:
such a date is not after a bound exactly if it is not after the bound's cut
(`Instant.le_cutToMillis_iff`). Below, the cut may let in one date more, the cut of the lower bound
itself (`Instant.eq_cutToMillis`). All of it holds for leap seconds too, because cutting keeps the
second and the order compares seconds first. A bound in a leap second in the middle of a minute
would travel as the second behind it, so that such windows are left out (`Window.InDomain`).

A window that holds no whole millisecond is not empty any more when it arrives.
-/

namespace PeerRelay

open Calendar

/-! ### Instants of whole milliseconds -/

namespace Calendar.Instant

variable {d t u : Instant}

/-- The instant has millisecond precision. -/
def WholeMillis (t : Instant) : Prop :=
  t.nanos % 1000000 = 0

instance (t : Instant) : Decidable t.WholeMillis :=
  inferInstanceAs (Decidable (_ = _))

theorem le_iff : t ≤ u ↔ t.seconds < u.seconds ∨ t.seconds = u.seconds ∧ t.nanos ≤ u.nanos :=
  Iff.rfl

theorem le_trans (htu : t ≤ u) (hud : u ≤ d) : t ≤ d := by
  rw [le_iff] at *
  omega

theorem wholeMillis_cutToMillis (t : Instant) : t.cutToMillis.WholeMillis := by
  rw [WholeMillis, nanos_cutToMillis]
  omega

theorem cutToMillis_le (t : Instant) : t.cutToMillis ≤ t :=
  le_iff.2 (.inr ⟨rfl, Nat.sub_le _ _⟩)

/-- The cut of an instant is the last whole millisecond that is not after it. -/
theorem le_cutToMillis_iff (hd : d.WholeMillis) : d ≤ t.cutToMillis ↔ d ≤ t := by
  constructor
  · intro h
    exact le_trans h t.cutToMillis_le
  · intro h
    have hnanos := t.nanos_cutToMillis
    have hseconds : t.cutToMillis.seconds = t.seconds := rfl
    rw [WholeMillis] at hd
    rw [le_iff] at *
    omega

/-- Between the cut of an instant and the instant there is no other whole millisecond. -/
theorem eq_cutToMillis (hd : d.WholeMillis) (hcut : t.cutToMillis ≤ d) (hbefore : ¬ t ≤ d) :
    d = t.cutToMillis := by
  have hle : d ≤ t := by
    rw [le_iff] at *
    omega
  have hle' : d ≤ t.cutToMillis := (le_cutToMillis_iff hd).2 hle
  rw [le_iff] at hcut hle'
  exact ext_parts (by omega) (by omega)

end Calendar.Instant

/-! ### Dates in a window -/

namespace Recovery.Window

variable {w : Window} {d : Instant}

theorem contains_iff : w.contains d = true ↔ w.dateMin ≤ d ∧ d ≤ w.dateMax :=
  decide_eq_true_iff

/-- For whole milliseconds, cutting a window moves its lower bound only. -/
theorem contains_cutToMillis_iff (hd : d.WholeMillis) :
    w.cutToMillis.contains d = true ↔ w.dateMin.cutToMillis ≤ d ∧ d ≤ w.dateMax := by
  rw [contains_iff]
  exact and_congr_right fun _ ↦ Instant.le_cutToMillis_iff hd

/-- No whole millisecond gets lost. -/
theorem contains_cutToMillis (hd : d.WholeMillis) (h : w.contains d = true) :
    w.cutToMillis.contains d = true := by
  obtain ⟨hmin, hmax⟩ := contains_iff.1 h
  exact (contains_cutToMillis_iff hd).2 ⟨Instant.le_trans w.dateMin.cutToMillis_le hmin, hmax⟩

/-- No whole millisecond is added but the cut of the lower bound. -/
theorem contains_or_eq (hd : d.WholeMillis) (h : w.cutToMillis.contains d = true) :
    w.contains d = true ∨ d = w.dateMin.cutToMillis := by
  obtain ⟨hcut, hmax⟩ := (contains_cutToMillis_iff hd).1 h
  by_cases hmin : w.dateMin ≤ d
  · exact .inl (contains_iff.2 ⟨hmin, hmax⟩)
  · exact .inr (Instant.eq_cutToMillis hd hcut hmin)

/-- The bounds that someone asks for are in order. -/
theorem le_of_ofTexts {lower upper : String} (h : ofTexts lower upper = .ok w) :
    w.dateMin ≤ w.dateMax := by
  rw [ofTexts, bind_eq_ok] at h
  obtain ⟨dateMin, -, h⟩ := h
  rw [bind_eq_ok] at h
  obtain ⟨dateMax, -, h⟩ := h
  split at h
  · rename_i hle
    obtain rfl := Except.ok.inj h
    exact hle
  · contradiction

/-- A window whose bounds are in order is not empty once it is cut. -/
theorem contains_cut_dateMin (hle : w.dateMin ≤ w.dateMax) :
    w.cutToMillis.contains w.dateMin.cutToMillis = true := by
  rw [contains_cutToMillis_iff w.dateMin.wholeMillis_cutToMillis]
  exact ⟨Instant.le_iff.2 (.inr ⟨rfl, le_rfl⟩), Instant.le_trans w.dateMin.cutToMillis_le hle⟩

/-- **A window survives its request.** What is received of a request, as it is delivered or through
the body that is sent, is read as a window. Of the dates of millisecond precision this window
contains exactly those from the cut of the lower bound to the upper bound. So it contains all that
the window contains, at most the cut of the lower bound besides, and at least one if the window is
what someone asked for with two texts. The bounds need not be in order for the rest of it. -/
theorem window_of_request (w : Window) (stamp : Message.Stamp) (receivers : List String)
    (sender : String) (hdomain : w.InDomain) :
    ∃ asked, read ((w.request stamp receivers).receivedFrom sender) = .ok asked ∧
      (∀ r, (Wire.Body.ofMessage (w.request stamp receivers) sender).receive = .ok r →
        read r = .ok asked) ∧
      (∀ d : Instant, d.WholeMillis →
        (asked.contains d = true ↔ w.dateMin.cutToMillis ≤ d ∧ d ≤ w.dateMax) ∧
        (w.contains d = true → asked.contains d = true) ∧
        (asked.contains d = true → w.contains d = true ∨ d = w.dateMin.cutToMillis)) ∧
      ∀ lower upper, ofTexts lower upper = .ok w →
        ∃ d : Instant, d.WholeMillis ∧ asked.contains d = true := by
  have hread : ∀ r : Received, r.message.metadata = (w.request stamp receivers).metadata →
      read r = .ok w.cutToMillis := by
    intro r hr
    rw [read_of_request hdomain.years hr, hdomain.asRead]
  refine ⟨w.cutToMillis, hread _ rfl, ?sent, ?dates, ?asked⟩
  case sent =>
    intro r hr
    obtain ⟨-, rfl⟩ := Wire.Body.receive_ofMessage_eq_ok.1 hr
    exact hread _ rfl
  case dates =>
    intro d hd
    exact ⟨contains_cutToMillis_iff hd, contains_cutToMillis hd, contains_or_eq hd⟩
  case asked =>
    intro lower upper h
    exact ⟨_, w.dateMin.wholeMillis_cutToMillis, contains_cut_dateMin (le_of_ofTexts h)⟩

/-- A window within one millisecond of a leap second. -/
def narrowWindow : Window where
  dateMin := ⟨1341100799, 1123456700, by decide, by decide, by decide⟩
  dateMax := ⟨1341100799, 1123500000, by decide, by decide, by decide⟩

theorem window_of_request_of_narrow :
    narrowWindow.InDomain ∧
      ofTexts "2012-06-30T23:59:60.1234567Z" "2012-06-30T23:59:60.1235Z" = .ok narrowWindow ∧
      ∃ asked, read ((narrowWindow.request ⟨"1", .epoch⟩ ["http://b"]).receivedFrom "http://a") =
          .ok asked ∧
        ∃ d : Instant, d.WholeMillis ∧ asked.contains d = true ∧
          narrowWindow.contains d = false := by
  have hdomain : narrowWindow.InDomain := by decide
  have hasked : ofTexts "2012-06-30T23:59:60.1234567Z" "2012-06-30T23:59:60.1235Z" =
      .ok narrowWindow := by decide +kernel
  obtain ⟨asked, hread, -, hdates, hnonempty⟩ :=
    window_of_request narrowWindow ⟨"1", .epoch⟩ ["http://b"] "http://a" hdomain
  obtain ⟨d, hd, hcontains⟩ := hnonempty _ _ hasked
  refine ⟨hdomain, hasked, asked, hread, d, hd, hcontains, ?_⟩
  -- no whole millisecond is within the window itself
  rw [Bool.eq_false_iff, ne_eq, contains_iff, Instant.le_iff, Instant.le_iff]
  rw [Instant.WholeMillis] at hd
  simp only [narrowWindow]
  omega

end Recovery.Window

end PeerRelay
