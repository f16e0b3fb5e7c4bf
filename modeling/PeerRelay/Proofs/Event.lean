import PeerRelay.Event
import PeerRelay.Proofs.Calendar.LenientText
import PeerRelay.Proofs.Text.Ordered

/-!
# Events and their fields

The fields of an event are a flat list of names, into which the metadata bring keys that others have
chosen. No field is hidden by another one (`fields_names_nodup`): built-in names differ from each
other, keys differ from each other behind their marker, and no built-in name begins as the marker
does. So everything that goes into the fields is found in them (`find?_fields`).

Nothing else of an event is needed to know it. A value that is absent has no field, and a value that
is there has one even if it is empty; a date is written with as many digits as it needs, so that the
instant that is shown can be told from its text (`Calendar.Instant.render_eq_iff`). That is the date
itself, unless it lies in a leap second in the middle of a minute: no text tells such a second from
the one behind it (`shown`).
-/

namespace PeerRelay

open Calendar

theorem Status.name_injective {s s' : Status} (h : s.name = s'.name) : s = s' := by
  cases s <;> cases s' <;> simp_all [Status.name]

namespace Event

variable {e e' : Event}

/-! ### Names -/

/-- The names of all built-in fields. -/
def builtinNames : List String :=
  ["application", "event_type", "status", "id", "date", "type", "source", "sender", "receivers",
    "target"]

theorem builtinFields_names_sublist (e : Event) :
    (e.builtinFields.map (·.1)).Sublist builtinNames := by
  have hone : ∀ (name : String) (value : Option String),
      ((value.toList.map fun s ↦ (name, FieldValue.one s)).map (·.1)).Sublist [name] := by
    intro name value
    cases value with
    | none => exact List.nil_sublist _
    | some s => exact List.Sublist.refl _
  have hreceivers : ((if e.receivers.isEmpty then [] else
      [("receivers", FieldValue.many e.receivers.toList)]).map (·.1)).Sublist ["receivers"] := by
    split
    · exact List.nil_sublist _
    · exact List.Sublist.refl _
  simp only [builtinFields, List.map_append]
  exact ((((List.Sublist.refl _).append (hone "source" e.source)).append
    (hone "sender" e.sender)).append hreceivers).append (hone "target" e.target)

/-- No built-in name is that of a key. -/
theorem metadataField_not_builtin (key : String) : metadataField key ∉ builtinNames := by
  have hbuiltin : ∀ name ∈ builtinNames, name.toList.head? ≠ some 'c' := by decide
  intro hmem
  refine hbuiltin _ hmem ?_
  rw [metadataField, String.toList_append]
  rfl

theorem metadataField_injective {key key' : String} (h : metadataField key = metadataField key') :
    key = key' := by
  rwa [metadataField, metadataField, String.append_right_inj] at h

/-- The fields of the metadata. -/
def metadataFields (e : Event) : List (String × FieldValue) :=
  e.metadata.entries.map fun (key, values) ↦ (metadataField key, .many values)

/-- No two fields of an event have one name. -/
theorem fields_names_nodup (e : Event) :
    ((e.builtinFields ++ e.metadataFields).map (·.1)).Nodup := by
  have hbuiltin : (e.builtinFields.map (·.1)).Nodup :=
    e.builtinFields_names_sublist.nodup (by decide)
  have hkeys : (e.metadata.entries.map (·.1)).Nodup := by
    refine List.pairwise_map.2 (e.metadata.ascending.imp fun {a b} hlt heq ↦ ?_)
    rw [heq] at hlt
    exact String.lt_irrefl _ hlt
  have hnames : e.metadataFields.map (·.1) = (e.metadata.entries.map (·.1)).map metadataField := by
    rw [metadataFields, List.map_map, List.map_map]
    rfl
  rw [List.map_append, hnames]
  refine List.Nodup.append hbuiltin (hkeys.map fun _ _ ↦ metadataField_injective) ?_
  intro name hname hkey
  obtain ⟨key, -, rfl⟩ := List.mem_map.1 hkey
  exact metadataField_not_builtin key (e.builtinFields_names_sublist.subset hname)

theorem fields_eq (e : Event) :
    e.fields = Text.TextMap.ofList (e.builtinFields ++ e.metadataFields) :=
  rfl

/-- What is found in the fields are the built-in fields and those of the metadata. -/
theorem find?_fields {name : String} {value : FieldValue} : e.fields.find? name = some value ↔
    (name, value) ∈ e.builtinFields ∨ ∃ key values, e.metadata.find? key = some values ∧
      name = metadataField key ∧ value = .many values := by
  rw [fields_eq, Text.TextMap.find?_ofList_eq_some e.fields_names_nodup, List.mem_append,
    metadataFields, List.mem_map]
  refine or_congr_right ⟨?_, ?_⟩
  · rintro ⟨⟨key, values⟩, hmem, heq⟩
    obtain ⟨rfl, rfl⟩ := Prod.mk.inj heq
    exact ⟨key, values, Text.TextMap.mem_entries_iff.1 hmem, rfl, rfl⟩
  · rintro ⟨key, values, hfind, rfl, rfl⟩
    exact ⟨(key, values), Text.TextMap.mem_entries_iff.2 hfind, rfl⟩

/-- Under the name of a key only its values are found. -/
theorem find?_metadataField {key : String} {value : FieldValue} :
    e.fields.find? (metadataField key) = some value ↔
      ∃ values, e.metadata.find? key = some values ∧ value = .many values := by
  rw [find?_fields]
  constructor
  · rintro (hbuiltin | ⟨key', values, hfind, hname, rfl⟩)
    · have hmem := e.builtinFields_names_sublist.subset (List.mem_map_of_mem (f := (·.1)) hbuiltin)
      exact absurd hmem (metadataField_not_builtin key)
    · rw [metadataField_injective hname]
      exact ⟨values, hfind, rfl⟩
  · rintro ⟨values, hfind, rfl⟩
    exact Or.inr ⟨key, values, hfind, rfl, rfl⟩

/-- Events with the same fields have the same built-in fields. -/
theorem mem_builtinFields_of_fields (h : e.fields = e'.fields) {field : String × FieldValue}
    (hfield : field ∈ e.builtinFields) : field ∈ e'.builtinFields := by
  have hfind := find?_fields.2 (Or.inl hfield)
  rw [h] at hfind
  rcases find?_fields.1 hfind with hbuiltin | ⟨key, values, -, hname, -⟩
  · exact hbuiltin
  · have hmem := e.builtinFields_names_sublist.subset (List.mem_map_of_mem (f := (·.1)) hfield)
    rw [hname] at hmem
    exact absurd hmem (metadataField_not_builtin key)

theorem metadata_eq_of_fields (h : e.fields = e'.fields) : e.metadata = e'.metadata := by
  refine Text.TextMap.ext_find? fun key ↦ Option.ext fun values ↦ ?_
  have hvalues : ∀ e : Event, e.metadata.find? key = some values ↔
      e.fields.find? (metadataField key) = some (.many values) := by
    intro e
    rw [find?_metadataField]
    exact ⟨fun hfind ↦ ⟨values, hfind, rfl⟩, fun ⟨_, hfind, heq⟩ ↦ FieldValue.many.inj heq ▸ hfind⟩
  rw [hvalues, hvalues, h]

/-! ### Values -/

/-- The event with its date as it is shown. -/
def shown (e : Event) : Event :=
  { e with date := e.date.carried }

theorem shown_eq_self_iff : e.shown = e ↔ e.date.LeapClosesMinute := by
  rw [← e.date.carried_eq_self_iff]
  exact ⟨congrArg Event.date, fun h ↦ by rw [shown, h]⟩

theorem fields_shown (e : Event) : e.shown.fields = e.fields := by
  have hdate : e.shown.date.render .fewest .numeric = e.date.render .fewest .numeric :=
    e.date.render_carried .fewest .numeric
  rw [fields, fields, builtinFields, builtinFields, hdate]
  rfl

/-- Everything in an event has a field of its own or is known from the lack of one. -/
theorem shown_eq_of_fields (h : e.fields = e'.fields) : e.shown = e'.shown := by
  have hmem : ∀ field, field ∈ e.builtinFields ↔ field ∈ e'.builtinFields := fun field ↦
    ⟨mem_builtinFields_of_fields h, mem_builtinFields_of_fields h.symm⟩
  have hstatus : e.status.name = e'.status.name := by
    simpa [builtinFields] using hmem ("status", .one e.status.name)
  have hid : e.id = e'.id := by simpa [builtinFields] using hmem ("id", .one e.id)
  have hdate : e.date.render .fewest .numeric = e'.date.render .fewest .numeric := by
    simpa [builtinFields] using hmem ("date", .one (e.date.render .fewest .numeric))
  have hkind : e.kind = e'.kind := by simpa [builtinFields] using hmem ("type", .one e.kind)
  -- a text that may be absent is the one in its field
  have hsource : e.source = e'.source :=
    Option.ext fun s ↦ by simpa [builtinFields] using hmem ("source", .one s)
  have hsender : e.sender = e'.sender :=
    Option.ext fun s ↦ by simpa [builtinFields] using hmem ("sender", .one s)
  have htarget : e.target = e'.target :=
    Option.ext fun s ↦ by simpa [builtinFields] using hmem ("target", .one s)
  have hreceivers : e.receivers = e'.receivers := by
    have htexts : ∀ texts, (e.receivers.toList ≠ [] ∧ texts = e.receivers.toList) ↔
        (e'.receivers.toList ≠ [] ∧ texts = e'.receivers.toList) := by
      intro texts
      simpa [builtinFields, Text.TextSet.isEmpty_iff] using hmem ("receivers", .many texts)
    refine Text.TextSet.ext_toList ?_
    by_cases hempty : e.receivers.toList = []
    · by_contra hne
      exact ((htexts _).2 ⟨fun hempty' ↦ hne (hempty.trans hempty'.symm), rfl⟩).1 hempty
    · exact ((htexts _).1 ⟨hempty, rfl⟩).2
  obtain ⟨status, id, date, source, sender, receivers, target, kind, metadata⟩ := e
  obtain ⟨status', id', date', source', sender', receivers', target', kind', metadata'⟩ := e'
  obtain rfl : status = status' := Status.name_injective hstatus
  obtain rfl : metadata = metadata' := metadata_eq_of_fields h
  cases hid
  cases hkind
  cases hsource
  cases hsender
  cases htarget
  cases hreceivers
  rw [shown, shown, Instant.render_eq_iff.1 hdate]

/-- Events have the same fields if they are shown as one event. -/
theorem fields_eq_iff : e.fields = e'.fields ↔ e.shown = e'.shown :=
  ⟨shown_eq_of_fields, fun h ↦ by rw [← fields_shown e, h, fields_shown e']⟩

theorem FieldValue.toJson_injective : Function.Injective FieldValue.toJson := by
  intro value value' h
  cases value with
  | one s =>
    cases value' with
    | one s' => rw [Json.Value.text.inj h]
    | many texts' => cases h
  | many texts =>
    cases value' with
    | one s' => cases h
    | many texts' =>
      have hitems : texts.map Json.Value.text = texts'.map Json.Value.text :=
        Json.Value.array.inj h
      rw [List.map_injective_iff.2 (fun _ _ ↦ Json.Value.text.inj) hitems]

/-- The document of the fields shows every one of them. -/
theorem fieldsJson_eq_iff : e.fieldsJson = e'.fieldsJson ↔ e.shown = e'.shown := by
  rw [← fields_eq_iff]
  refine ⟨fun h ↦ ?_, fun h ↦ by rw [fieldsJson, fieldsJson, h]⟩
  have hentries := Json.Value.object.inj h
  have hdocument : Function.Injective fun field : String × FieldValue ↦
      (field.1, field.2.toJson) := by
    intro field field' hfield
    obtain ⟨hname, hvalue⟩ := Prod.mk.inj hfield
    exact Prod.ext hname (FieldValue.toJson_injective hvalue)
  exact Text.TextMap.ext_entries (List.map_injective_iff.2 hdocument hentries)

/-- **The fields of an event lose nothing.** Events with the same fields are the same, and so are
events whose fields have the same document, if their dates lie in no leap second but one that closes
its minute; without this condition they are the same but for such a second, which is shown as the
one behind it. The fields are the built-in ones and one for each key of the metadata, each of them
found under its name with its own value: whatever the keys are, none of them stands in for a
built-in field or for another key. -/
theorem fields_lose_nothing :
    (∀ e e' : Event, e.date.LeapClosesMinute → e'.date.LeapClosesMinute →
      (e.fields = e'.fields ↔ e = e') ∧ (e.fieldsJson = e'.fieldsJson ↔ e = e')) ∧
      (∀ e e' : Event, (e.fields = e'.fields ↔ e.shown = e'.shown) ∧
        (e.fieldsJson = e'.fieldsJson ↔ e.shown = e'.shown)) ∧
      ∀ e : Event,
        (∀ name value, (name, value) ∈ e.builtinFields → e.fields.find? name = some value) ∧
        (∀ key values, e.metadata.find? key = some values →
          e.fields.find? (metadataField key) = some (.many values)) ∧
        e.fields.entries.length = e.builtinFields.length + e.metadata.entries.length := by
  refine ⟨fun e e' h h' ↦ ?_, fun e e' ↦ ⟨fields_eq_iff, fieldsJson_eq_iff⟩, fun e ↦ ⟨?_, ?_, ?_⟩⟩
  · rw [fields_eq_iff, fieldsJson_eq_iff, shown_eq_self_iff.2 h, shown_eq_self_iff.2 h']
    exact ⟨Iff.rfl, Iff.rfl⟩
  · intro name value hfield
    exact find?_fields.2 (Or.inl hfield)
  · intro key values hfind
    exact find?_metadataField.2 ⟨values, hfind, rfl⟩
  · have hperm : e.fields.entries.Perm (e.builtinFields ++ e.metadataFields) :=
      Text.TextMap.entries_ofList_perm e.fields_names_nodup
    rw [hperm.length_eq, List.length_append, metadataFields, List.length_map]

/-- An event in a leap second, of empty texts and with metadata keys like the names of fields. -/
def crowded : Event where
  status := .handled
  id := ""
  date := ⟨1230767999, 1250000000, by decide, by decide, by decide⟩
  source := some ""
  sender := none
  receivers := ∅
  target := none
  kind := ""
  metadata := .ofList [("", []), ("custom_id", [""]), ("id", ["7"]), ("target", [])]

theorem fields_lose_nothing_of_crowded :
    crowded.date.isLeap = true ∧ crowded.date.LeapClosesMinute ∧
      crowded.fields.find? "id" = some (.one "") ∧
      crowded.fields.find? "custom_id" = some (.many ["7"]) ∧
      crowded.fields.find? "custom_custom_id" = some (.many [""]) ∧
      crowded.fields.find? "custom_" = some (.many []) ∧
      crowded.fields.entries.length = 11 ∧
      crowded.fields ≠ { crowded with source := none }.fields ∧
      crowded.fieldsJson ≠ { crowded with target := some "" }.fieldsJson := by
  obtain ⟨hinjective, -, hfields⟩ := fields_lose_nothing
  obtain ⟨hbuiltin, hmetadata, hlength⟩ := hfields crowded
  have hcloses : crowded.date.LeapClosesMinute := by decide
  refine ⟨by decide, hcloses, hbuiltin "id" (.one "") (by simp [builtinFields, crowded]),
    hmetadata "id" ["7"] (by decide), hmetadata "custom_id" [""] (by decide),
    hmetadata "" [] (by decide), ?_, ?_, ?_⟩
  · exact hlength.trans (by decide)
  · have hsource := hinjective crowded { crowded with source := none } hcloses hcloses
    exact fun h ↦ absurd (hsource.1.1 h) (by decide)
  · have htarget := hinjective crowded { crowded with target := some "" } hcloses hcloses
    exact fun h ↦ absurd (htarget.2.1 h) (by decide)

/-- Half a second after the thirtieth second of the day, within a leap second that prolongs it. -/
def midMinute : Instant :=
  ⟨30, 1500000000, by decide, by decide, by decide⟩

example : { crowded with date := midMinute }.fields =
    { crowded with date := ⟨31, 500000000, by decide, by decide, by decide⟩ }.fields :=
  (fields_shown { crowded with date := midMinute }).symm

end Event

end PeerRelay
