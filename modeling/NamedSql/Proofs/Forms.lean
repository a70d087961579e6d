import NamedSql.Table

/-!
# Values in the form that is asked for

A converter answers in the form that is asked for or not at all (`Kind.inForm_convert?`), and NULL needs none
(`Converters.form_of_convert`). So a typed read gives nothing for NULL alone: any other value is given in the form of
the read, or the failure of its conversion is (`Record.reads_keep_data`).
-/

namespace NamedSql

variable {v w : Value} {target : Representation}

/-! ### Converters -/

namespace Value

theorem kind?_eq_none_iff : v.kind? = none ↔ v = .null := by
  cases v <;> simp [kind?]

theorem representation?_eq_none_iff : v.representation? = none ↔ v = .null := by
  cases v <;> simp [representation?]

/-- What was found, if anything, is in the form. -/
def InForm (target : Representation) (found : Option Value) : Prop :=
  ∀ w ∈ found, w.representation? = some target

@[simp]
theorem inForm_none : InForm target none := by
  simp [InForm]

@[simp]
theorem inForm_some : InForm target (some w) ↔ w.representation? = some target := by
  simp [InForm]

@[simp]
theorem inForm_map {α : Type} {found : Option α} {form : α → Value} :
    InForm target (found.map form) ↔ ∀ a ∈ found, (form a).representation? = some target := by
  simp [InForm]

end Value

namespace Kind

open Value

theorem inForm_convertNumeric? : InForm target (convertNumeric? v target) := by
  fun_cases convertNumeric? v target <;> simp [representation?]

theorem inForm_convertBoolean? : InForm target (convertBoolean? v target) := by
  fun_cases convertBoolean? v target <;> simp [representation?]

theorem inForm_convertText? : InForm target (convertText? v target) := by
  fun_cases convertText? v target <;> simp [representation?, -Option.map_bind]

theorem inForm_convertBytes? : InForm target (convertBytes? v target) := by
  fun_cases convertBytes? v target <;> simp [representation?]

theorem inForm_convertDate? : InForm target (convertDate? v target) := by
  fun_cases convertDate? v target <;> simp [representation?]

theorem inForm_convertTimestamp? : InForm target (convertTimestamp? v target) := by
  fun_cases convertTimestamp? v target <;> simp [representation?]

theorem inForm_convertJson? : InForm target (convertJson? v target) := by
  fun_cases convertJson? v target <;> simp [representation?]

/-- No converter answers in another form than the one that is asked for. -/
theorem inForm_convert? (k : Kind) : InForm target (k.convert? v target) := by
  cases k with
  | numeric => exact inForm_convertNumeric?
  | boolean => exact inForm_convertBoolean?
  | text => exact inForm_convertText?
  | bytes => exact inForm_convertBytes?
  | date => exact inForm_convertDate?
  | timestamp => exact inForm_convertTimestamp?
  | json => exact inForm_convertJson?

theorem representation?_of_convert {k : Kind} (h : k.convert v target = .ok w) : w.representation? = some target := by
  unfold convert at h
  split at h
  · next found hfound =>
    obtain rfl := Except.ok.inj h
    exact inForm_convert? k _ hfound
  · cases h

end Kind

namespace Converters

variable {c : Converters}

@[simp]
theorem convert_null : c.convert .null target = .ok .null := rfl

/-- What is converted is NULL if it was, and else in the form that was asked for. -/
theorem form_of_convert (h : c.convert v target = .ok w) :
    (v = .null ∧ w = .null) ∨ (v ≠ .null ∧ w.representation? = some target) := by
  unfold convert at h
  split at h
  · next hkind => exact .inl ⟨Value.kind?_eq_none_iff.1 hkind, (Except.ok.inj h).symm⟩
  · next k hkind =>
    have hne : v ≠ .null := fun hnull => by
      rw [Value.kind?_eq_none_iff.2 hnull] at hkind
      cases hkind
    split at h
    · exact .inr ⟨hne, Kind.representation?_of_convert h⟩
    · cases h

theorem eq_null_iff_of_convert (h : c.convert v target = .ok w) : w = .null ↔ v = .null := by
  obtain ⟨rfl, rfl⟩ | ⟨hne, hform⟩ := form_of_convert h
  · exact Iff.rfl
  · have hfilled : w ≠ .null := fun hnull => by
      rw [Value.representation?_eq_none_iff.2 hnull] at hform
      cases hform
    exact iff_of_false hfilled hne

end Converters

/-! ### Typed reads -/

namespace Record

variable {r : Record} {name : String}

/-- What a read answers for a stored value: nothing for NULL alone, and else the value in the form of the read, or the
failure of its conversion. -/
structure Answers {α : Type} (target : Representation) (form : α → Value) (v : Value)
    (answer : Except Failure (Option α)) : Prop where
  nothing : answer = .ok none ↔ v = .null
  something : v ≠ .null →
    (∃ a, answer = .ok (some a) ∧ Converters.standard.convert v target = .ok (form a)) ∨
      ∃ e, answer = .error e ∧ Converters.standard.convert v target = .error e

theorem read_of_get? (h : r.get? name = some v) : r.read name target = Converters.standard.convert v target := by
  obtain ⟨index, hindex, hvalue⟩ := Option.bind_eq_some_iff.1 h
  rw [read, hindex]
  show r.readAt index target = _
  rw [readAt, hvalue]
  rfl

/-- A read whose answers are right for whatever value is stored under the name. -/
def Faithful {α : Type} (target : Representation) (form : α → Value)
    (read : Record → String → Except Failure (Option α)) : Prop :=
  ∀ r name v, r.get? name = some v → Answers target form v (read r name)

/-- A read is faithful if it takes apart what it is given: NULL, a value of its form or a failure. -/
theorem faithful_of_read {α : Type} {form : α → Value} {read : Record → String → Except Failure (Option α)}
    (hform : ∀ w : Value, w.representation? = some target → ∃ a, w = form a)
    (hnull : ∀ r name, r.read name target = .ok .null → read r name = .ok none)
    (hsome : ∀ r name a, r.read name target = .ok (form a) → read r name = .ok (some a))
    (herror : ∀ r name e, r.read name target = .error e → read r name = .error e) : Faithful target form read := by
  intro r name v hv
  have hread : r.read name target = Converters.standard.convert v target := read_of_get? hv
  cases hconvert : Converters.standard.convert v target with
  | error e =>
    rw [hconvert] at hread
    have hne : v ≠ .null := by
      rintro rfl
      cases hconvert
    rw [herror r name e hread]
    exact ⟨iff_of_false nofun hne, fun _ => .inr ⟨e, rfl, hconvert⟩⟩
  | ok w =>
    rw [hconvert] at hread
    obtain ⟨rfl, rfl⟩ | ⟨hne, hw⟩ := Converters.form_of_convert hconvert
    · rw [hnull r name hread]
      exact ⟨iff_of_true rfl rfl, fun hne => absurd rfl hne⟩
    · obtain ⟨a, rfl⟩ := hform w hw
      rw [hsome r name a hread]
      exact ⟨iff_of_false nofun hne, fun _ => .inl ⟨a, rfl, hconvert⟩⟩

theorem faithful_readInteger : Faithful .integer .integer readInteger := by
  refine faithful_of_read (fun w hw => ?_) (fun r name h => ?_) (fun r name a h => ?_) fun r name e h => ?_
  · cases w <;> cases hw
    exact ⟨_, rfl⟩
  all_goals
    rw [readInteger, h]
    rfl

theorem faithful_readText : Faithful .text .text readText := by
  refine faithful_of_read (fun w hw => ?_) (fun r name h => ?_) (fun r name a h => ?_) fun r name e h => ?_
  · cases w <;> cases hw
    exact ⟨_, rfl⟩
  all_goals
    rw [readText, h]
    rfl

theorem faithful_readBoolean : Faithful .boolean .boolean readBoolean := by
  refine faithful_of_read (fun w hw => ?_) (fun r name h => ?_) (fun r name a h => ?_) fun r name e h => ?_
  · cases w <;> cases hw
    exact ⟨_, rfl⟩
  all_goals
    rw [readBoolean, h]
    rfl

theorem faithful_readDate : Faithful .date .date readDate := by
  refine faithful_of_read (fun w hw => ?_) (fun r name h => ?_) (fun r name a h => ?_) fun r name e h => ?_
  · cases w <;> cases hw
    exact ⟨_, rfl⟩
  all_goals
    rw [readDate, h]
    rfl

theorem faithful_readTimestamp : Faithful .timestamp .timestamp readTimestamp := by
  refine faithful_of_read (fun w hw => ?_) (fun r name h => ?_) (fun r name a h => ?_) fun r name e h => ?_
  · cases w <;> cases hw
    exact ⟨_, rfl⟩
  all_goals
    rw [readTimestamp, h]
    rfl

theorem faithful_readBytes : Faithful .bytes .blob readBytes := by
  refine faithful_of_read (fun w hw => ?_) (fun r name h => ?_) (fun r name a h => ?_) fun r name e h => ?_
  · cases w <;> cases hw
    exact ⟨_, rfl⟩
  all_goals
    rw [readBytes, h]
    rfl

/-- Whatever value is converted to whatever form, if that succeeds the result is NULL exactly if the value is, and
otherwise it has the form that was asked for. So the typed reads of a row give nothing exactly if NULL is stored under
the name, and for any other value what it is converted to or the failure of its conversion. -/
theorem reads_keep_data :
    (∀ (v w : Value) (target : Representation), Converters.standard.convert v target = .ok w →
      (w = .null ↔ v = .null) ∧ (v ≠ .null → w.representation? = some target)) ∧
    Faithful .integer .integer readInteger ∧ Faithful .text .text readText ∧
    Faithful .boolean .boolean readBoolean ∧ Faithful .date .date readDate ∧
    Faithful .timestamp .timestamp readTimestamp ∧ Faithful .bytes .blob readBytes := by
  refine ⟨fun v w target h => ⟨Converters.eq_null_iff_of_convert h, fun hne => ?_⟩, faithful_readInteger,
    faithful_readText, faithful_readBoolean, faithful_readDate, faithful_readTimestamp, faithful_readBytes⟩
  obtain ⟨hnull, -⟩ | ⟨-, hform⟩ := Converters.form_of_convert h
  · exact absurd hnull hne
  · exact hform

/-- A number in a text, a NULL, and a text that is no date. -/
def mixedRecord : Record :=
  ⟨.ofNames ["USER_ID", "since", "until"], [.text " 42 ", .null, .text "soon"]⟩

theorem reads_keep_data_of_mixed :
    mixedRecord.readInteger "userId" = .ok (some 42) ∧ mixedRecord.readTimestamp "since" = .ok none ∧
      ∃ e, mixedRecord.readDate "until" = .error e := by
  obtain ⟨-, hinteger, -, -, hdate, htimestamp, -⟩ := reads_keep_data
  have hid : mixedRecord.get? "userId" = some (.text " 42 ") := rfl
  have hsince : mixedRecord.get? "since" = some .null := rfl
  have huntil : mixedRecord.get? "until" = some (.text "soon") := rfl
  refine ⟨?_, (htimestamp _ _ _ hsince).nothing.2 rfl, ?_⟩
  · have hconvert : Converters.standard.convert (.text " 42 ") .integer = .ok (.integer 42) := rfl
    obtain ⟨n, hn, heq⟩ | ⟨e, -, herror⟩ := (hinteger _ _ _ hid).something nofun
    · rw [hconvert] at heq
      cases heq
      exact hn
    · rw [hconvert] at herror
      cases herror
  · have hconvert : Converters.standard.convert (.text "soon") .date = .error (.conversion (some .text) .date) := rfl
    obtain ⟨d, -, heq⟩ | ⟨e, he, -⟩ := (hdate _ _ _ huntil).something nofun
    · rw [hconvert] at heq
      cases heq
    · exact ⟨e, he⟩

end Record

end NamedSql
