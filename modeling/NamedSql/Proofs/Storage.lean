import NamedSql.Proofs.Documents
import NamedSql.Proofs.Written
import NamedSql.Vendor

/-!
# Storing values

What is written to a database of any vendor is read back as what it was, in the form that it had
(`stored_values_kept`). Most values are stored as they are; the others as integers or as their texts.
-/

namespace NamedSql.Vendor

variable {v : Vendor} {w : Value} {r : Representation}

theorem ofStorage_self (hr : w.representation? = some r) : ofStorage w r = .ok w := by
  cases w <;> cases hr <;> rfl

theorem ofStorage_text {s : String} (h : Kind.convertText? (.text s) r = some w) : ofStorage (.text s) r = .ok w := by
  have hsupports : Converters.standard.supports .text r = true := by cases r <;> rfl
  show (if Converters.standard.supports .text r then Kind.text.convert (.text s) r
    else .error (.conversion (some .text) r)) = .ok w
  rw [if_pos hsupports, Kind.convert, Kind.convert?, h]

theorem ofStorage_render_date (d : Date) : ofStorage (.text (String.ofList d.render)) .date = .ok (.date d) := by
  refine ofStorage_text ?_
  rw [Kind.convertText?, String.toList_ofList, Date.trim_render, Date.ofText?_render]
  rfl

theorem ofStorage_render_timestamp (t : Timestamp) :
    ofStorage (.text (String.ofList t.render)) .timestamp = .ok (.timestamp t) := by
  refine ofStorage_text ?_
  rw [Kind.convertText?, String.toList_ofList, Timestamp.trim_render, Timestamp.ofText?_render]
  rfl

theorem ofStorage_render_json {j : Json} (h : Json.Integral Json.maxDepth j) :
    ofStorage (.text (String.ofList j.render)) .json = .ok (.json j) := by
  refine ofStorage_text ?_
  rw [Kind.convertText?, String.toList_ofList, Json.ofText?_render h]
  rfl

theorem toBound_text {s : String} (h : v = .oracle → s ≠ "") : v.toBound (.text s) = .ok (.text s) := by
  cases v with
  | oracle =>
    have hs : s.isEmpty = false := by
      rw [Bool.eq_false_iff]
      exact fun hempty => h rfl (String.isEmpty_iff.1 hempty)
    have hadjust : adjust .oracle (.text s) = .text s := by
      rw [adjust, hs]
      rfl
    rw [toBound, hadjust]
    rfl
  | _ => rfl

/-- The form of a document in the database: its text, or the document itself. -/
theorem toBound_json (v : Vendor) (j : Json) : v.toBound (.json j) = .ok (.text (String.ofList j.render)) ∨
    v.toBound (.json j) = .ok (.json j) := by
  cases v with
  | postgres => exact .inr rfl
  | _ => exact .inl rfl

/-- Every value but NULL is written, and what was written is read as the value in the value's own form, floating
point numbers bit for bit and timestamps with leap seconds. Only the empty text is NULL with Oracle. Of a
document it is required that its numbers are integers and that it is not nested deeper than documents are
read. -/
theorem stored_values_kept (v : Vendor) {w : Value} {r : Representation} (hr : w.representation? = some r)
    (hjson : ∀ j, w = .json j → Json.Integral Json.maxDepth j) :
    (v = .oracle ∧ w = .text "" ∧ v.toBound w = .ok .null) ∨
      ∃ stored, v.toBound w = .ok stored ∧ ofStorage stored r = .ok w := by
  have hself (h : v.toBound w = .ok w) : ∃ stored, v.toBound w = .ok stored ∧ ofStorage stored r = .ok w :=
    ⟨w, h, ofStorage_self hr⟩
  cases w with
  | null => cases hr
  | integer n => exact .inr (hself (by cases v <;> rfl))
  | float x => exact .inr (hself (by cases v <;> rfl))
  | blob bytes => exact .inr (hself (by cases v <;> rfl))
  | text s =>
    by_cases hempty : v = .oracle ∧ s = ""
    · obtain ⟨rfl, rfl⟩ := hempty
      exact .inl ⟨rfl, rfl, rfl⟩
    · exact .inr (hself (toBound_text fun hv hs => hempty ⟨hv, hs⟩))
  | boolean b =>
    cases hr
    refine .inr ?_
    cases v with
    | sqlite | oracle => cases b <;> exact ⟨_, rfl, rfl⟩
    | _ => exact hself rfl
  | date d =>
    cases hr
    refine .inr ?_
    cases v with
    | sqlite => exact ⟨_, rfl, ofStorage_render_date d⟩
    | _ => exact hself rfl
  | timestamp t =>
    cases hr
    refine .inr ?_
    cases v with
    | sqlite => exact ⟨_, rfl, ofStorage_render_timestamp t⟩
    | _ => exact hself rfl
  | json j =>
    cases hr
    refine .inr ?_
    rcases toBound_json v j with htext | hown
    · exact ⟨_, htext, ofStorage_render_json (hjson j rfl)⟩
    · exact hself hown

/-- Half a second after the last second of 2016. -/
def leapMoment : Timestamp :=
  ⟨⟨2016, 12, 31, by decide⟩, 23, 59, 59, 1500000000, by decide⟩

def nestedDocument : Json :=
  .object [("a", .array [.integer (-9223372036854775808), .string "\"\n"]), ("b", .object [])]

theorem integral_nestedDocument : Json.Integral Json.maxDepth nestedDocument := by
  refine .object ?_ (List.forall_mem_cons.2 ⟨.array ?_, List.forall_mem_singleton.2 (.object .nil nofun)⟩)
  · exact List.pairwise_pair.2 (by decide)
  · exact List.forall_mem_cons.2 ⟨.integer (by decide) (by decide), List.forall_mem_singleton.2 (.string _)⟩

theorem stored_values_kept_of_leap_second :
    (∃ stored, toBound .sqlite (.timestamp leapMoment) = .ok stored ∧
      ofStorage stored .timestamp = .ok (.timestamp leapMoment)) ∧
    ∃ stored, toBound .oracle (.json nestedDocument) = .ok stored ∧
      ofStorage stored .json = .ok (.json nestedDocument) := by
  constructor
  · rcases stored_values_kept .sqlite (w := .timestamp leapMoment) rfl nofun with ⟨hv, -⟩ | hkept
    · cases hv
    · exact hkept
  · have hjson : ∀ j, Value.json nestedDocument = .json j → Json.Integral Json.maxDepth j := by
      rintro j ⟨⟩
      exact integral_nestedDocument
    rcases stored_values_kept .oracle (w := .json nestedDocument) rfl hjson with ⟨-, hw, -⟩ | hkept
    · cases hw
    · exact hkept

end NamedSql.Vendor
