import Unbounded.Json.Record
import Unbounded.Text.Controls

/-!
# Why a value was not read

What a derived reader reports when it refuses a value. A reader goes through a value in the order of
the document and reports the first thing that it does not accept. `Covers` says that nothing is
refused without a report, and `Report.Static` that a report has no text of the document in it but
for the two that quote one: an unknown variant and an unexpected string.
-/

namespace Unbounded.Json

open Text (utf8 decodeUtf8 utf8_of_decodeUtf8 utf8_injective hasControl)

/-- The reports of a derived reader. -/
inductive Report where
  /-- An enumeration has no variant of this name. -/
  | unknownVariant (variant : String)
  /-- A string stands where something else was expected. -/
  | unexpectedText (text : String)
  /-- Any other value stands where something else was expected. -/
  | unexpectedValue
  | outOfRange
  | missingField (name : String)
  | duplicateField (name : String)
  | invalidLength
  /-- The document is not well formed. -/
  | malformed
  deriving DecidableEq, Repr

/-- The names of fields in a report, which come from a declaration, have no control character. -/
def Report.Static : Report → Prop
  | .missingField name | .duplicateField name => hasControl name = false
  | _ => True

/-- A value that is not what was expected. -/
def unexpected : Value → Report
  | .string content =>
      match decodeUtf8 content with
      | some text => .unexpectedText text
      | none => .malformed
  | _ => .unexpectedValue

/-- Why a value is no text. -/
def textReport : Value → Option Report
  | .string content => if (decodeUtf8 content).isSome then none else some .malformed
  | _ => some .unexpectedValue

/-- Why a value is no natural number below a bound. -/
def naturalReport (bound : Nat) : Value → Option Report
  | .natural value => if value < bound then none else some .outOfRange
  | value => some (unexpected value)

/-- Why a value is no list. -/
def listReport (element : Value → Option Report) : Value → Option Report
  | .array elements => elements.findSome? element
  | value => some (unexpected value)

/-- Why a value is neither `null` nor what it may be. -/
def optionalReport (report : Value → Option Report) : Value → Option Report
  | .null => none
  | value => report value

/-- Read a variant without content: its name, or an object with its name and `null`. -/
def Value.variant {α : Type} (ofName : String → Option α) : Value → Option α
  | .string content => (decodeUtf8 content).bind ofName
  | .object [(key, .null)] => (decodeUtf8 key).bind ofName
  | _ => none

/-- Why a value is no variant. The name is looked at before anything that follows it. -/
def variantReport {α : Type} (ofName : String → Option α) : Value → Option Report
  | .string content =>
      match decodeUtf8 content with
      | none => some .malformed
      | some name => if (ofName name).isSome then none else some (.unknownVariant name)
  | .object ((key, content) :: rest) =>
      match decodeUtf8 key with
      | none => some .malformed
      | some name =>
          if (ofName name).isSome then
            match content, rest with
            | .null, [] => none
            | .null, _ => some .malformed
            | content, _ => some (unexpected content)
          else some (.unknownVariant name)
  | _ => some .malformed

/-! ## Records -/

/-- A field of a record: its name, whether it must be there, and why its value is refused. -/
structure Field where
  name : String
  required : Bool
  report : Value → Option Report

/-- The first field that must be there and was not seen. -/
def missingReport (fields : List Field) (seen : List String) : Option Report :=
  (fields.find? fun field ↦ field.required && !seen.contains field.name).map fun field ↦
    .missingField field.name

/-- Why the members of an object are no record, after some fields were seen. -/
def membersReport (fields : List Field) :
    List String → List (List UInt8 × Value) → Option Report
  | seen, [] => missingReport fields seen
  | seen, (key, value) :: members =>
      match decodeUtf8 key with
      | none => some .malformed
      | some name =>
          match fields.find? fun field ↦ field.name == name with
          | none => membersReport fields seen members
          | some field =>
              if seen.contains name then some (.duplicateField name)
              else
                match field.report value with
                | some report => some report
                | none => membersReport fields (name :: seen) members

/-- Why the elements of an array are no record. -/
def elementsReport : List Field → List Value → Option Report
  | [], [] => none
  | [], _ :: _ => some .malformed
  | field :: fields, [] => if field.required then some .invalidLength else elementsReport fields []
  | field :: fields, value :: values =>
      match field.report value with
      | some report => some report
      | none => elementsReport fields values

/-- Why a value is no record. -/
def recordReport (fields : List Field) : Value → Option Report
  | .object members => membersReport fields [] members
  | .array elements => elementsReport fields elements
  | value => some (unexpected value)

/-- A record is refused for its first member, whatever follows. -/
theorem recordReport_first {fields : List Field} (field : Field) {value : Value} {report : Report}
    (hfield : fields.find? (fun other ↦ other.name == field.name) = some field)
    (hreport : field.report value = some report) (members : List (String × Value)) :
    recordReport fields (.record ((field.name, value) :: members)) = some report := by
  simp only [recordReport, Value.record, List.map_cons, membersReport, Text.decodeUtf8_utf8, hfield,
    hreport, List.contains_nil, Bool.false_eq_true, if_false]

/-! ## Nothing is refused without a report -/

/-- What is not reported is read. -/
def Covers {α : Type} (report : Value → Option Report) (read : Value → Option α) : Prop :=
  ∀ value, report value = none → ∃ result, read value = some result

/-- A text that is refused is reported. -/
theorem covers_text : Covers textReport Value.text := by
  intro value h
  cases value with
  | string content =>
      simp only [textReport, ite_eq_left_iff, reduceCtorEq, imp_false, Bool.not_eq_true,
        Bool.not_eq_false] at h
      exact Option.isSome_iff_exists.1 h
  | _ => cases h

/-- A number that is refused is reported. -/
theorem covers_natural (bound : Nat) : Covers (naturalReport bound) (Value.natBelow bound) := by
  intro value h
  cases value with
  | natural number =>
      simp only [naturalReport, ite_eq_left_iff, reduceCtorEq, imp_false, Decidable.not_not] at h
      exact ⟨number, if_pos h⟩
  | _ => cases h

/-- A variant that is refused is reported. -/
theorem covers_variant {α : Type} (ofName : String → Option α) :
    Covers (variantReport ofName) (Value.variant ofName) := by
  intro value h
  unfold variantReport at h
  split at h
  case h_1 content =>
    split at h
    case h_1 => cases h
    case h_2 name hname =>
      split at h
      case isFalse => cases h
      case isTrue hknown =>
        obtain ⟨result, hresult⟩ := Option.isSome_iff_exists.1 hknown
        exact ⟨result, by rw [Value.variant, hname, Option.bind_some, hresult]⟩
  case h_2 key content rest =>
    split at h
    case h_1 => cases h
    case h_2 name hname =>
      split at h
      case isFalse => cases h
      case isTrue hknown =>
        split at h
        case h_1 =>
          obtain ⟨result, hresult⟩ := Option.isSome_iff_exists.1 hknown
          exact ⟨result, by rw [Value.variant, hname, Option.bind_some, hresult]⟩
        case h_2 => cases h
        case h_3 => cases h
  case h_3 => cases h

/-- A list that is refused is reported. -/
theorem covers_list {α : Type} {report : Value → Option Report} {read : Value → Option α}
    (hcovers : Covers report read) : Covers (listReport report) (Value.list read) := by
  intro value h
  cases value with
  | array elements =>
      show ∃ results, elements.mapM read = some results
      have helements : ∀ element ∈ elements, report element = none := List.findSome?_eq_none_iff.1 h
      clear h
      induction elements with
      | nil => exact ⟨[], rfl⟩
      | cons element elements ih =>
          obtain ⟨result, hresult⟩ := hcovers element (helements element List.mem_cons_self)
          obtain ⟨results, hresults⟩ :=
            ih fun other hother ↦ helements other (List.mem_cons_of_mem _ hother)
          exact ⟨result :: results, by rw [List.mapM_cons, hresult, hresults]; rfl⟩
  | _ => cases h

/-- An optional value that is refused is reported. -/
theorem covers_optional {α : Type} {report : Value → Option Report} {read : Value → Option α}
    (hcovers : Covers report read) (value : Value) (h : optionalReport report value = none) :
    ∃ result, optionalField read (some value) = some result := by
  cases value with
  | null => exact ⟨none, rfl⟩
  | _ =>
      obtain ⟨result, hresult⟩ := hcovers _ h
      exact ⟨some result, by simp only [optionalField, hresult, Option.map_some]⟩

/-- What stands in a field is accepted. -/
def Field.Passes (field : Field) : Option Value → Prop
  | none => field.required = false
  | some value => field.report value = none

/-- What stands in a required field is read. -/
theorem Field.Passes.read {α : Type} {name : String} {report : Value → Option Report}
    {read : Value → Option α} {found : Option Value} (hcovers : Covers report read)
    (h : (Field.mk name true report).Passes found) :
    ∃ value result, found = some value ∧ read value = some result := by
  cases found with
  | none => cases h
  | some value =>
      obtain ⟨result, hresult⟩ := hcovers value h
      exact ⟨value, result, rfl, hresult⟩

/-- What stands in an optional field is read, and so is a field that is missing. -/
theorem Field.Passes.read_optional {α : Type} {name : String} {report : Value → Option Report}
    {read : Value → Option α} {found : Option Value} (hcovers : Covers report read)
    (h : (Field.mk name false (optionalReport report)).Passes found) :
    ∃ result, optionalField read found = some result := by
  cases found with
  | none => exact ⟨none, rfl⟩
  | some value => exact covers_optional hcovers value h

/-- A member with another name is not looked up. -/
theorem lookup_cons_of_ne {key : List UInt8} {name : String} (hne : key ≠ utf8 name)
    (value : Value) (members : List (List UInt8 × Value)) :
    lookup ((key, value) :: members) name = lookup members name := by
  unfold lookup
  rw [List.filter_cons_of_neg (by simpa using hne)]

/-- The first member of a name that does not come again is found. -/
theorem lookup_cons_self {name : String} {members : List (List UInt8 × Value)}
    (h : lookup members name = some none) (value : Value) :
    lookup ((utf8 name, value) :: members) name = some (some value) := by
  unfold lookup at h ⊢
  rw [List.filter_cons_of_pos (by simp)]
  split at h
  case h_1 hnone => rw [hnone]
  case h_2 => cases h
  case h_3 => cases h

/-- A field is found by its name. -/
theorem find?_name {fields : List Field} (hnodup : (fields.map Field.name).Nodup) {field : Field}
    (hmem : field ∈ fields) :
    fields.find? (fun other ↦ other.name == field.name) = some field := by
  induction fields with
  | nil => cases hmem
  | cons first fields ih =>
      rw [List.map_cons, List.nodup_cons] at hnodup
      rcases List.mem_cons.1 hmem with rfl | hrest
      · exact List.find?_cons_of_pos (by simp)
      · have hne : first.name ≠ field.name := fun heq ↦
          hnodup.1 (heq ▸ List.mem_map_of_mem hrest)
        rw [List.find?_cons_of_neg (by simpa using hne)]
        exact ih hnodup.2 hrest

/-- What an object that is not reported has for a field: nothing more if the field was seen, and
something that is accepted if it was not. -/
theorem lookup_of_membersReport {fields : List Field} (hnodup : (fields.map Field.name).Nodup)
    {seen : List String} {members : List (List UInt8 × Value)}
    (h : membersReport fields seen members = none) {field : Field} (hfield : field ∈ fields) :
    (field.name ∈ seen → lookup members field.name = some none) ∧
      (field.name ∉ seen → ∃ found, lookup members field.name = some found ∧
        field.Passes found) := by
  induction members generalizing seen with
  | nil =>
      refine ⟨fun _ ↦ rfl, fun hseen ↦ ⟨none, rfl, ?_⟩⟩
      have hnone := List.find?_eq_none.1 (Option.map_eq_none_iff.1 h) field hfield
      show field.required = false
      simpa [hseen] using hnone
  | cons member members ih =>
      obtain ⟨key, value⟩ := member
      unfold membersReport at h
      split at h
      case h_1 => cases h
      case h_2 name hname =>
        obtain rfl := utf8_of_decodeUtf8 hname
        split at h
        case h_1 hunknown =>
          have hne : name ≠ field.name := by
            rintro rfl
            rw [find?_name hnodup hfield] at hunknown
            cases hunknown
          rw [lookup_cons_of_ne fun heq ↦ hne (utf8_injective heq)]
          exact ih h
        case h_2 known hknown =>
          split at h
          case isTrue => cases h
          case isFalse hfresh =>
            split at h
            case h_1 => cases h
            case h_2 haccepted =>
              obtain ⟨hagain, hlater⟩ := ih h
              by_cases hsame : field.name = name
              · subst hsame
                rw [find?_name hnodup hfield, Option.some.injEq] at hknown
                subst hknown
                refine ⟨fun hseen ↦ absurd (List.contains_iff_mem.2 hseen) hfresh, fun _ ↦ ?_⟩
                exact ⟨some value, lookup_cons_self (hagain List.mem_cons_self) value, haccepted⟩
              · rw [lookup_cons_of_ne fun heq ↦ hsame (utf8_injective heq).symm]
                refine ⟨fun hseen ↦ hagain (List.mem_cons_of_mem _ hseen), fun hseen ↦ hlater ?_⟩
                exact fun hmem ↦ (List.mem_cons.1 hmem).elim hsame hseen

/-- The keys of an object that is not reported are texts. -/
theorem keys_of_membersReport {fields : List Field} {seen : List String}
    {members : List (List UInt8 × Value)} (h : membersReport fields seen members = none) :
    (members.all fun member ↦ (decodeUtf8 member.1).isSome) = true := by
  induction members generalizing seen with
  | nil => rfl
  | cons member members ih =>
      obtain ⟨key, value⟩ := member
      unfold membersReport at h
      split at h
      case h_1 => cases h
      case h_2 name hname =>
        rw [List.all_cons, hname, Option.isSome_some, Bool.true_and]
        split at h
        case h_1 => exact ih h
        case h_2 =>
          split at h
          case isTrue => cases h
          case isFalse =>
            split at h
            case h_1 => cases h
            case h_2 => exact ih h

/-- The elements of an array that is not reported are the first fields, and the rest may be
missing. -/
theorem passes_of_elementsReport {fields : List Field} {elements : List Value}
    (h : elementsReport fields elements = none) :
    elements.length ≤ fields.length ∧ List.Forall₂ Field.Passes fields
      (elements.map some ++ List.replicate (fields.length - elements.length) none) := by
  induction fields generalizing elements with
  | nil =>
      cases elements with
      | nil => exact ⟨Nat.le_refl 0, .nil⟩
      | cons => cases h
  | cons field fields ih =>
      cases elements with
      | nil =>
          unfold elementsReport at h
          split at h
          case isTrue => cases h
          case isFalse hoptional =>
            exact ⟨Nat.zero_le _, .cons (Bool.eq_false_of_not_eq_true hoptional) (ih h).2⟩
      | cons value values =>
          unfold elementsReport at h
          split at h
          case h_1 => cases h
          case h_2 haccepted =>
            obtain ⟨hlength, hpasses⟩ := ih h
            refine ⟨Nat.succ_le_succ hlength, ?_⟩
            rw [List.length_cons, List.length_cons, Nat.add_sub_add_right]
            exact .cons haccepted hpasses

/-- A record that is not reported has a value that is accepted in each field, or none where it may
be missing. -/
theorem fields_of_recordReport {fields : List Field} (hnodup : (fields.map Field.name).Nodup)
    {value : Value} (h : recordReport fields value = none) :
    ∃ found, value.fields (fields.map Field.name) = some found ∧
      List.Forall₂ Field.Passes fields found := by
  cases value with
  | object members =>
      have hfound : ∀ some_fields : List Field, some_fields ⊆ fields →
          ∃ found, (some_fields.map Field.name).mapM (lookup members) = some found ∧
            List.Forall₂ Field.Passes some_fields found := by
        intro some_fields hsubset
        induction some_fields with
        | nil => exact ⟨[], rfl, .nil⟩
        | cons field rest ih =>
            obtain ⟨value, hvalue, hpasses⟩ := (lookup_of_membersReport hnodup h
              (hsubset List.mem_cons_self)).2 (List.not_mem_nil)
            obtain ⟨found, hfound, hrest⟩ := ih fun other hother ↦
              hsubset (List.mem_cons_of_mem _ hother)
            refine ⟨value :: found, ?_, .cons hpasses hrest⟩
            rw [List.map_cons, List.mapM_cons, hvalue, hfound]
            rfl
      obtain ⟨found, hread, hpasses⟩ := hfound fields (List.Subset.refl fields)
      exact ⟨found, by rw [Value.fields, if_pos (keys_of_membersReport h), hread], hpasses⟩
  | array elements =>
      obtain ⟨hlength, hpasses⟩ := passes_of_elementsReport h
      refine ⟨_, ?_, hpasses⟩
      rw [Value.fields, List.length_map, if_pos hlength]
  | _ => cases h

/-! ## Where a report comes from -/

/-- The values that stand directly in a value. -/
def Value.children : Value → List Value
  | .array elements => elements
  | .object members => members.map Prod.snd
  | _ => []

/-- Where the report about a record comes from: its shape, the names of its fields, or what stands
in one of them. -/
inductive Origin (fields : List Field) (value : Value) : Report → Prop where
  | malformed : Origin fields value .malformed
  | invalidLength : Origin fields value .invalidLength
  | unexpected : Origin fields value (unexpected value)
  | missing {field : Field} (hfield : field ∈ fields) :
      Origin fields value (.missingField field.name)
  | duplicate {field : Field} (hfield : field ∈ fields) :
      Origin fields value (.duplicateField field.name)
  | child {field : Field} {child : Value} {report : Report} (hfield : field ∈ fields)
      (hchild : child ∈ value.children) (hreport : field.report child = some report) :
      Origin fields value report

/-- The origin of a report about an object. -/
theorem origin_of_membersReport {fields : List Field} {seen : List String}
    {all members : List (List UInt8 × Value)} {report : Report} (hsubset : members ⊆ all)
    (h : membersReport fields seen members = some report) :
    Origin fields (.object all) report := by
  induction members generalizing seen with
  | nil =>
      obtain ⟨field, hfind, rfl⟩ := Option.map_eq_some_iff.1 h
      exact .missing (List.mem_of_find?_eq_some hfind)
  | cons member members ih =>
      obtain ⟨key, value⟩ := member
      obtain ⟨hmember, hmembers⟩ := List.cons_subset.1 hsubset
      unfold membersReport at h
      split at h
      case h_1 =>
        cases h
        exact .malformed
      case h_2 name _ =>
        split at h
        case h_1 => exact ih hmembers h
        case h_2 field hfield =>
          have hmem : field ∈ fields := List.mem_of_find?_eq_some hfield
          have hname : field.name = name := by simpa using List.find?_some hfield
          split at h
          case isTrue =>
            cases h
            rw [← hname]
            exact .duplicate hmem
          case isFalse =>
            split at h
            case h_1 hreport =>
              cases h
              exact .child hmem (List.mem_map_of_mem hmember) hreport
            case h_2 => exact ih hmembers h

/-- The origin of a report about an array. -/
theorem origin_of_elementsReport {all fields : List Field} {values elements : List Value}
    {report : Report} (hfields : fields ⊆ all) (hsubset : elements ⊆ values)
    (h : elementsReport fields elements = some report) : Origin all (.array values) report := by
  induction fields generalizing elements with
  | nil =>
      cases elements with
      | nil => cases h
      | cons =>
          cases h
          exact .malformed
  | cons field fields ih =>
      obtain ⟨hfield, hrest⟩ := List.cons_subset.1 hfields
      cases elements with
      | nil =>
          unfold elementsReport at h
          split at h
          case isTrue =>
            cases h
            exact .invalidLength
          case isFalse => exact ih hrest hsubset h
      | cons value elements =>
          obtain ⟨hvalue, helements⟩ := List.cons_subset.1 hsubset
          unfold elementsReport at h
          split at h
          case h_1 hreport =>
            cases h
            exact .child hfield hvalue hreport
          case h_2 => exact ih hrest helements h

/-- The origin of a report about a record. -/
theorem origin_of_recordReport {fields : List Field} {value : Value} {report : Report}
    (h : recordReport fields value = some report) : Origin fields value report := by
  cases value with
  | object members => exact origin_of_membersReport (List.Subset.refl members) h
  | array elements =>
      exact origin_of_elementsReport (List.Subset.refl fields) (List.Subset.refl elements) h
  | _ =>
      cases h
      exact .unexpected

/-- The origin of a report about a list. -/
theorem origin_of_listReport {element : Value → Option Report} {value : Value} {report : Report}
    (h : listReport element value = some report) :
    report = unexpected value ∨ ∃ child ∈ value.children, element child = some report := by
  cases value with
  | array elements => exact .inr (List.exists_of_findSome?_eq_some h)
  | _ =>
      cases h
      exact .inl rfl

/-- An unexpected value is no unknown variant. -/
theorem unexpected_ne_unknownVariant (value : Value) (variant : String) :
    unexpected value ≠ .unknownVariant variant := by
  unfold unexpected
  split
  · split <;> exact Report.noConfusion
  · exact Report.noConfusion

/-- A text is never reported as an unknown variant. -/
theorem textReport_ne_unknownVariant (value : Value) (variant : String) :
    textReport value ≠ some (.unknownVariant variant) := by
  unfold textReport
  split
  · split <;> exact nofun
  · exact nofun

/-- A number is never reported as an unknown variant. -/
theorem naturalReport_ne_unknownVariant (bound : Nat) (value : Value) (variant : String) :
    naturalReport bound value ≠ some (.unknownVariant variant) := by
  unfold naturalReport
  split
  · split <;> exact nofun
  · exact fun h ↦ unexpected_ne_unknownVariant value variant (Option.some.inj h)

/-- An optional value is reported as an unknown variant only by the reader of the value. -/
theorem optionalReport_ne_unknownVariant {report : Value → Option Report} {value : Value}
    {variant : String} (h : report value ≠ some (.unknownVariant variant)) :
    optionalReport report value ≠ some (.unknownVariant variant) := by
  cases value with
  | null => exact nofun
  | _ => exact h

/-- A value that is the name of a variant, or an object that begins with it. -/
inductive Names (variant : String) : Value → Prop where
  | text : Names variant (.ofText variant)
  | object {content : Value} {members : List (List UInt8 × Value)} :
      Names variant (.object ((utf8 variant, content) :: members))

/-- An unknown variant stands in the value that is refused. -/
theorem names_of_unknownVariant {α : Type} {ofName : String → Option α} {value : Value}
    {variant : String} (h : variantReport ofName value = some (.unknownVariant variant)) :
    Names variant value := by
  unfold variantReport at h
  split at h
  case h_1 content =>
    split at h
    case h_1 => cases h
    case h_2 name hname =>
      split at h
      case isTrue => cases h
      case isFalse =>
        cases h
        rw [← utf8_of_decodeUtf8 hname]
        exact .text
  case h_2 key content rest =>
    split at h
    case h_1 => cases h
    case h_2 name hname =>
      split at h
      case isTrue =>
        split at h
        case h_1 => cases h
        case h_2 => cases h
        case h_3 => exact absurd (Option.some.inj h) (unexpected_ne_unknownVariant _ variant)
      case isFalse =>
        cases h
        rw [← utf8_of_decodeUtf8 hname]
        exact .object
  case h_3 => cases h

/-- The field of a record that an unknown variant stands in. -/
theorem child_of_unknownVariant {fields : List Field} {value : Value} {variant : String}
    (h : recordReport fields value = some (.unknownVariant variant)) :
    ∃ field ∈ fields, ∃ child ∈ value.children,
      field.report child = some (.unknownVariant variant) := by
  generalize hreport : Report.unknownVariant variant = report at h
  cases origin_of_recordReport h with
  | malformed | invalidLength | missing | duplicate => cases hreport
  | unexpected => exact absurd hreport.symm (unexpected_ne_unknownVariant value variant)
  | child hfield hchild hfound => exact ⟨_, hfield, _, hchild, hreport ▸ hfound⟩

/-! ## Reports without names from the document -/

/-- The reports of a reader have no names from the document. -/
def Quiet (report : Value → Option Report) : Prop :=
  ∀ value found, report value = some found → found.Static

/-- An unexpected value is reported without a name. -/
theorem static_unexpected (value : Value) : (unexpected value).Static := by
  unfold unexpected
  split
  · split <;> trivial
  · trivial

/-- The reports about a text have no names from the document. -/
theorem quiet_text : Quiet textReport := by
  intro value report h
  unfold textReport at h
  split at h
  · split at h
    · cases h
    · cases h
      trivial
  · cases h
    trivial

/-- The reports about a number have no names from the document. -/
theorem quiet_natural (bound : Nat) : Quiet (naturalReport bound) := by
  intro value report h
  unfold naturalReport at h
  split at h
  · split at h
    · cases h
    · cases h
      trivial
  · cases h
    exact static_unexpected value

/-- The reports about a variant have no names from the document. -/
theorem quiet_variant {α : Type} (ofName : String → Option α) : Quiet (variantReport ofName) := by
  intro value report h
  unfold variantReport at h
  split at h
  case h_1 =>
    split at h
    case h_1 =>
      cases h
      trivial
    case h_2 =>
      split at h
      case isTrue => cases h
      case isFalse =>
        cases h
        trivial
  case h_2 =>
    split at h
    case h_1 =>
      cases h
      trivial
    case h_2 =>
      split at h
      case isFalse =>
        cases h
        trivial
      case isTrue =>
        split at h
        case h_1 => cases h
        case h_2 =>
          cases h
          trivial
        case h_3 =>
          cases h
          exact static_unexpected _
  case h_3 =>
    cases h
    trivial

/-- The reports about a list have no names from the document if those about its elements have none.
-/
theorem quiet_list {element : Value → Option Report} (hquiet : Quiet element) :
    Quiet (listReport element) := by
  intro value report h
  rcases origin_of_listReport h with rfl | ⟨child, _, hchild⟩
  · exact static_unexpected value
  · exact hquiet child report hchild

/-- The reports about an optional value have no names from the document if those about the value
have none. -/
theorem quiet_optional {report : Value → Option Report} (hquiet : Quiet report) :
    Quiet (optionalReport report) := by
  intro value found h
  cases value with
  | null => cases h
  | _ => exact hquiet _ found h

/-- The reports about a record whose fields are declared with proper names have no names from the
document. -/
theorem quiet_record {fields : List Field}
    (hfields : ∀ field ∈ fields, hasControl field.name = false ∧ Quiet field.report) :
    Quiet (recordReport fields) := by
  intro value report h
  cases origin_of_recordReport h with
  | malformed | invalidLength => trivial
  | unexpected => exact static_unexpected value
  | missing hfield | duplicate hfield => exact (hfields _ hfield).1
  | child hfield _ hreport => exact (hfields _ hfield).2 _ report hreport

end Unbounded.Json
