/-
Module: SourceAudit.Proofs.Json.RoundTrip
Layer: Proofs
Purpose: A report on a file survives its JSON form. A record is written field by field, its absent
  optional fields left out, and read slot by slot; as no value is written as null, an absent field is
  told from every present one. Values of closed sets are known by their names, and values kept by name
  come back in their order.
Main exports: ReadsBack, NamedApart, Json.fieldsOf, Json.slots?_eq, want?_map_encode,
  ByName.ofList_entries, Omits, KeepsIdentity, fileReport_survives_json
-/
import SourceAudit.Codec.Report

namespace SourceAudit

/-- What is written can be read, and what is there is never written as null. -/
class ReadsBack (α : Type) [Encode α] [Decode α] : Prop where
  decode_encode (a : α) : decode? (encode a) = some a
  encode_ne_null (a : α) : encode a ≠ .null

export ReadsBack (decode_encode encode_ne_null)

/-- A closed set of values none of which goes by the name of another. -/
class NamedApart (α : Type) [NamedValues α] : Prop where
  valueNamed?_nameOf (a : α) : valueNamed? (NamedValues.nameOf a) = some a

/-! ### Single values and lists -/

instance : ReadsBack String := ⟨fun _ => rfl, nofun⟩

instance : ReadsBack Bool := ⟨fun _ => rfl, nofun⟩

instance : ReadsBack Nat := ⟨fun _ => rfl, nofun⟩

instance : ReadsBack UInt8 where
  decode_encode n := by
    change (if n.toNat < 256 then some (UInt8.ofNat n.toNat) else none) = some n
    rw [if_pos n.toNat_lt, UInt8.ofNat_toNat]
  encode_ne_null := nofun

instance {α : Type} [NamedValues α] [NamedApart α] : ReadsBack α where
  decode_encode a := NamedApart.valueNamed?_nameOf a
  encode_ne_null := nofun

instance {α : Type} [Encode α] [Decode α] [ReadsBack α] : ReadsBack (List α) where
  decode_encode as := by
    change (as.map encode).mapM decode? = some as
    induction as with
    | nil => rfl
    | cons a as ih => simp [decode_encode, ih]
  encode_ne_null := nofun

instance : NamedApart IssueKind := ⟨fun a => by cases a <;> rfl⟩

instance : NamedApart Impact := ⟨fun a => by cases a <;> rfl⟩

instance : NamedApart FixKind := ⟨fun a => by cases a <;> rfl⟩

instance : NamedApart Severity := ⟨fun a => by cases a <;> rfl⟩

instance : NamedApart FindingCategory := ⟨fun a => by cases a <;> rfl⟩

instance : NamedApart Confidence := ⟨fun a => by cases a <;> rfl⟩

/-! ### Values by name -/

namespace ByName

variable {α : Type}

/-- A name behind all others is put at the end. -/
theorem changeEntries_of_lt {name : String} (new : Option α → α) {entries : List (String × α)}
    (above : ∀ e ∈ entries, e.1 < name) :
    changeEntries name new entries = entries ++ [(name, new none)] := by
  induction entries with
  | nil => rfl
  | cons e rest ih =>
    obtain ⟨first, others⟩ := List.forall_mem_cons.1 above
    have other : name ≠ e.1 := by
      rintro rfl
      exact String.lt_irrefl _ first
    rw [changeEntries, if_neg other, if_neg (String.lt_asymm first), ih others, List.cons_append]

theorem foldl_insert_entries (front : List (String × α)) {back : List (String × α)}
    (ascending : (front ++ back).Pairwise fun a b => a.1 < b.1) :
    back.foldl (fun (values : ByName α) e => values.insert e.1 e.2)
      ⟨front, (List.pairwise_append.1 ascending).1⟩ = ⟨front ++ back, ascending⟩ := by
  induction back generalizing front with
  | nil => simp
  | cons e back ih =>
    have above : ∀ f ∈ front, f.1 < e.1 :=
      fun f mem => (List.pairwise_append.1 ascending).2.2 f mem e List.mem_cons_self
    have onward : ((front ++ [e]) ++ back).Pairwise fun a b => a.1 < b.1 := by
      rwa [List.append_assoc, List.singleton_append]
    have step : ByName.insert ⟨front, (List.pairwise_append.1 ascending).1⟩ e.1 e.2 =
        ⟨front ++ [e], (List.pairwise_append.1 onward).1⟩ := by
      simp only [insert, change, changeEntries_of_lt _ above]
    rw [List.foldl_cons, step, ih (front ++ [e]) onward]
    simp only [List.append_assoc, List.cons_append, List.nil_append]

/-- Entries in order make up the values they came from. -/
theorem ofList_entries (values : ByName α) : ofList values.entries = values :=
  foldl_insert_entries [] values.ascending

instance [Encode α] [Decode α] [ReadsBack α] : ReadsBack (ByName α) where
  decode_encode values := by
    have each : (values.entries.map fun e => (e.1, encode e.2)).mapM
        (fun e => (decode? e.2).map fun x : α => (e.1, x)) = some values.entries := by
      induction values.entries with
      | nil => rfl
      | cons e rest ih => simp [decode_encode, ih]
    change Option.map ofList _ = _
    rw [each, Option.map_some, ofList_entries]
  encode_ne_null := nofun

end ByName

/-! ### Records -/

section

variable {α : Type} [Encode α] [Decode α] [ReadsBack α]

/-- An optional field comes back as it was, present or not. -/
theorem want?_map_encode (a : Option α) : want? (a.map encode) = some a := by
  cases a with
  | none => rfl
  | some a =>
    rw [Option.map_some, want?]
    · rw [decode_encode, Option.map_some]
    · exact encode_ne_null a

-- the steps of a reader, each of which goes on with the field it has read

variable {β : Type}

theorem need?_encode_bind (a : α) (next : α → Option β) :
    (need? (some (encode a)) >>= next) = next a := by
  rw [need?, decode_encode, Option.bind_eq_bind, Option.bind_some]

theorem needOr?_encode_bind (absent a : α) (next : α → Option β) :
    (needOr? absent (some (encode a)) >>= next) = next a := by
  rw [needOr?, decode_encode, Option.bind_eq_bind, Option.bind_some]

theorem want?_map_encode_bind (a : Option α) (next : Option α → Option β) :
    (want? (a.map encode) >>= next) = next a := by
  rw [want?_map_encode, Option.bind_eq_bind, Option.bind_some]

end

namespace Json

/-- The fields of a record: each key with what is in its slot, if anything is. -/
def fieldsOf : (keys : List String) → (slots : List (Option Json)) → List (String × Json)
  | key :: keys, some j :: slots => (key, j) :: fieldsOf keys slots
  | _ :: keys, none :: slots => fieldsOf keys slots
  | _, _ => []

theorem fst_mem_of_mem_fieldsOf {keys : List String} {slots : List (Option Json)}
    {field : String × Json} (mem : field ∈ fieldsOf keys slots) : field.1 ∈ keys := by
  fun_induction fieldsOf keys slots with
  | case1 key keys j slots ih =>
    rcases List.mem_cons.1 mem with rfl | mem
    · exact List.mem_cons_self
    · exact List.mem_cons_of_mem _ (ih mem)
  | case2 key keys slots ih => exact List.mem_cons_of_mem _ (ih mem)
  | case3 => cases mem

/-- A record written field by field is read slot by slot. -/
theorem slots?_eq {j : Json} {keys : List String} {slots : List (Option Json)}
    (written : j = .obj (fieldsOf keys slots)) (once : keys.Nodup) (same : keys.length = slots.length) :
    j.slots? keys = some slots := by
  -- what stands before the fields of the last keys is not looked at any more
  suffices each : ∀ front : List (String × Json), (∀ field ∈ front, field.1 ∉ keys) →
      (obj (front ++ fieldsOf keys slots)).slots? keys = some slots by
    rw [written]
    exact each [] (fun _ mem => by cases mem)
  clear written
  induction keys generalizing slots with
  | nil =>
    cases slots with
    | nil => exact fun _ _ => rfl
    | cons slot slots => cases same
  | cons key keys ih =>
    cases slots with
    | nil => cases same
    | cons slot slots =>
      intro front apart
      obtain ⟨absent, once⟩ := List.nodup_cons.1 once
      have behind : (fieldsOf keys slots).filter (·.1 == key) = [] := by
        refine List.filter_eq_nil_iff.2 fun field mem same => absent ?_
        rw [← eq_of_beq same]
        exact fst_mem_of_mem_fieldsOf mem
      have before : front.filter (·.1 == key) = [] :=
        List.filter_eq_nil_iff.2 fun field mem same =>
          apart field mem (by rw [eq_of_beq same]; exact List.mem_cons_self)
      have others : ∀ field ∈ front, field.1 ∉ keys :=
        fun field mem inside => apart field mem (List.mem_cons_of_mem _ inside)
      have lengths : keys.length = slots.length := Nat.succ.inj same
      cases slot with
      | none =>
        have rest := ih once lengths front others
        simp only [slots?, List.mapM_cons, fieldsOf] at rest ⊢
        rw [rest]
        simp [before, behind]
      | some j =>
        have rest := ih once lengths (front ++ [(key, j)]) (by
          intro field mem
          rcases List.mem_append.1 mem with mem | mem
          · exact others field mem
          · obtain rfl := List.mem_singleton.1 mem
            exact absent)
        rw [List.append_assoc, List.singleton_append] at rest
        simp only [slots?, List.mapM_cons, fieldsOf] at rest ⊢
        rw [rest]
        simp [before, behind]

end Json

instance : ReadsBack Issue where
  decode_encode i := by
    have slots : (encode i).slots? ["type", "line", "message", "code"] =
        some [some (encode i.kind), some (encode i.line), some (encode i.message),
          some (encode i.code)] := Json.slots?_eq rfl (by decide) rfl
    change (_ >>= _) = _
    rw [slots, Option.bind_eq_bind, Option.bind_some]
    simp only [↓need?_encode_bind, Option.pure_def]
  encode_ne_null := nofun

instance : ReadsBack Suggestion where
  decode_encode s := by
    have slots : (encode s).slots? ["type", "message", "autoFix", "fixCode", "impact", "fixKind"] =
        some [some (encode s.category), some (encode s.message), some (encode s.autoFix),
          s.fixCode.map encode, s.impact.map encode, s.fixKind.map encode] := by
      refine Json.slots?_eq ?_ (by decide) rfl
      obtain ⟨category, message, autoFix, _ | fixCode, _ | impact, _ | fixKind⟩ := s <;> rfl
    change (_ >>= _) = _
    rw [slots, Option.bind_eq_bind, Option.bind_some]
    simp only [↓need?_encode_bind, ↓needOr?_encode_bind, ↓want?_map_encode_bind, Option.pure_def]
  encode_ne_null := nofun

instance : ReadsBack Finding where
  decode_encode f := by
    have slots : (encode f).slots? ["type", "name", "severity", "message", "line"] =
        some [some (encode f.category), f.name.map encode, some (encode f.severity),
          some (encode f.message), some (encode f.line)] := by
      refine Json.slots?_eq ?_ (by decide) rfl
      obtain ⟨category, _ | name, severity, message, line⟩ := f <;> rfl
    change (_ >>= _) = _
    rw [slots, Option.bind_eq_bind, Option.bind_some]
    simp only [↓need?_encode_bind, ↓want?_map_encode_bind, Option.pure_def]
  encode_ne_null := nofun

instance : ReadsBack DesignPattern where
  decode_encode p := by
    have slots : (encode p).slots? ["name", "confidence", "message"] =
        some [some (encode p.name), some (encode p.confidence), some (encode p.message)] :=
      Json.slots?_eq rfl (by decide) rfl
    change (_ >>= _) = _
    rw [slots, Option.bind_eq_bind, Option.bind_some]
    simp only [↓need?_encode_bind, Option.pure_def]
  encode_ne_null := nofun

/-- The default binding of an import, written as null when there is none. -/
theorem want?_default (i : ImportSpec) :
    want? (some (match i.default with | some name => encode name | none => .null)) = some i.default := by
  cases i.default <;> rfl

instance : ReadsBack ImportSpec where
  decode_encode i := by
    have slots : (encode i).slots? ["named", "default", "from"] =
        some [some (encode i.named),
          some (match i.default with | some name => encode name | none => .null),
          some (encode i.source)] := Json.slots?_eq rfl (by decide) rfl
    change (_ >>= _) = _
    rw [slots, Option.bind_eq_bind, Option.bind_some]
    simp only [↓need?_encode_bind, want?_default, Option.bind_eq_bind, Option.bind_some,
      Option.pure_def]
  encode_ne_null := nofun

instance : ReadsBack DependencyNode where
  decode_encode n := by
    have slots : (encode n).slots? ["imports", "exports", "dependencies"] =
        some [some (encode n.imports), some (encode n.exports), some (encode n.dependencies)] :=
      Json.slots?_eq rfl (by decide) rfl
    change (_ >>= _) = _
    rw [slots, Option.bind_eq_bind, Option.bind_some]
    simp only [↓need?_encode_bind, Option.pure_def]
  encode_ne_null := nofun

instance : ReadsBack CircularDependency where
  decode_encode c := by
    have slots : (encode c).slots? ["severity", "files", "message"] =
        some [some (encode c.severity), some (encode c.files), some (encode c.message)] :=
      Json.slots?_eq rfl (by decide) rfl
    change (_ >>= _) = _
    rw [slots, Option.bind_eq_bind, Option.bind_some]
    simp only [↓need?_encode_bind, Option.pure_def]
  encode_ne_null := nofun

instance : ReadsBack UnusedImport where
  decode_encode u := by
    have slots : (encode u).slots? ["fileName", "name", "from"] =
        some [some (encode u.fileName), some (encode u.name), some (encode u.source)] :=
      Json.slots?_eq rfl (by decide) rfl
    change (_ >>= _) = _
    rw [slots, Option.bind_eq_bind, Option.bind_some]
    simp only [↓need?_encode_bind, Option.pure_def]
  encode_ne_null := nofun

instance : ReadsBack DependencyAnalysis where
  decode_encode a := by
    have slots : (encode a).slots? ["dependencyGraph", "circularDependencies", "unusedImports"] =
        some [some (encode a.graph), some (encode a.cycles), some (encode a.unusedImports)] :=
      Json.slots?_eq rfl (by decide) rfl
    change (_ >>= _) = _
    rw [slots, Option.bind_eq_bind, Option.bind_some]
    simp only [↓need?_encode_bind, Option.pure_def]
  encode_ne_null := nofun

instance : ReadsBack DeepAnalysis where
  decode_encode a := by
    have slots : (encode a).slots? ["fileName", "patterns", "antiPatterns", "syntaxErrors",
          "semanticWarnings", "runtimeErrors", "performanceWarnings", "securityVulnerabilities",
          "dependencies", "overallScore"] =
        some [some (encode a.fileName), some (encode a.patterns), some (encode a.antiPatterns),
          some (encode a.syntaxErrors), some (encode a.semanticWarnings),
          some (encode a.runtimeErrors), some (encode a.performanceWarnings),
          some (encode a.securityVulnerabilities), a.dependencies.map encode,
          some (encode a.overallScore)] := by
      refine Json.slots?_eq ?_ (by decide) rfl
      obtain ⟨_, _, _, _, _, _, _, _, _ | dependencies, _⟩ := a <;> rfl
    change (_ >>= _) = _
    rw [slots, Option.bind_eq_bind, Option.bind_some]
    simp only [↓need?_encode_bind, ↓want?_map_encode_bind, Option.pure_def]
  encode_ne_null := nofun

instance : ReadsBack FileReport where
  decode_encode r := by
    have slots : (encode r).slots? ["fileName", "fileType", "lines", "size", "issues", "suggestions",
          "errorCount", "warningCount", "infoCount", "qualityScore", "contentPreview", "language",
          "deepAnalysis"] =
        some [some (encode r.fileName), some (encode r.fileType), some (encode r.lines),
          some (encode r.size), some (encode r.issues), some (encode r.suggestions),
          some (encode r.errorCount), some (encode r.warningCount), some (encode r.infoCount),
          some (encode r.qualityScore), some (encode r.contentPreview), r.language.map encode,
          r.deepAnalysis.map encode] := by
      refine Json.slots?_eq ?_ (by decide) rfl
      obtain ⟨_, _, _, _, _, _, _, _, _, _, _, _ | language, _ | deep⟩ := r <;> rfl
    change (_ >>= _) = _
    rw [slots, Option.bind_eq_bind, Option.bind_some]
    simp only [↓need?_encode_bind, ↓want?_map_encode_bind, Option.pure_def]
  encode_ne_null := nofun

/-! ### What the form looks like -/

/-- The fields of an object. -/
def Json.fields : Json → List (String × Json)
  | .obj fields => fields
  | _ => []

/-- A record has a field under the key exactly when the value for it is there. -/
def Omits {α β : Type} [Encode α] (key : String) (value : α → Option β) : Prop :=
  ∀ a : α, key ∈ (encode a).fields.map Prod.fst ↔ (value a).isSome

/-- Every value of a closed set is written as its name, which is made of small letters and hyphens,
    and is known again by it. -/
def KeepsIdentity (α : Type) [NamedValues α] : Prop :=
  ∀ a : α, encode a = .str (NamedValues.nameOf a) ∧
    decode? (.str (NamedValues.nameOf a)) = some a ∧
    ∀ c ∈ (NamedValues.nameOf a).toList, c.isLower ∨ c = '-'

theorem keepsIdentity_of_small {α : Type} [NamedValues α] [NamedApart α]
    (small : ∀ a : α, ((NamedValues.nameOf a).toList.all fun c => c.isLower || c == '-') = true) :
    KeepsIdentity α := by
  refine fun a => ⟨rfl, NamedApart.valueNamed?_nameOf a, fun c mem => ?_⟩
  simpa only [Bool.or_eq_true, beq_iff_eq] using List.all_eq_true.1 (small a) c mem

theorem omits_of_suggestion :
    Omits "fixCode" Suggestion.fixCode ∧ Omits "impact" Suggestion.impact ∧
      Omits "fixKind" Suggestion.fixKind := by
  refine ⟨?_, ?_, ?_⟩ <;> rintro ⟨category, message, autoFix, _ | fixCode, _ | impact, _ | fixKind⟩ <;>
    simp [encode, Json.fields, optionalField]

theorem omits_of_finding : Omits "name" Finding.name := by
  rintro ⟨category, _ | name, severity, message, line⟩ <;> simp [encode, Json.fields, optionalField]

theorem omits_of_deepAnalysis : Omits "dependencies" DeepAnalysis.dependencies := by
  rintro ⟨_, _, _, _, _, _, _, _, _ | dependencies, _⟩ <;>
    simp [encode, Json.fields, optionalField]

theorem omits_of_fileReport :
    Omits "language" FileReport.language ∧ Omits "deepAnalysis" FileReport.deepAnalysis := by
  refine ⟨?_, ?_⟩ <;> rintro ⟨_, _, _, _, _, _, _, _, _, _, _, _ | language, _ | deep⟩ <;>
    simp [encode, Json.fields, optionalField]

theorem keepsIdentity_of_reports :
    KeepsIdentity IssueKind ∧ KeepsIdentity Impact ∧ KeepsIdentity FixKind ∧ KeepsIdentity Severity ∧
      KeepsIdentity FindingCategory ∧ KeepsIdentity Confidence := by
  refine ⟨?_, ?_, ?_, ?_, ?_, ?_⟩ <;> refine keepsIdentity_of_small fun a => ?_ <;> cases a <;> decide

/-- A report on a file survives its JSON form. Its optional fields, and those of the suggestions, the
    findings and the deep analysis in it, are left out when absent; a missing default binding is
    written as null and read as missing; and every value of a closed set stays what it is. -/
theorem fileReport_survives_json :
    (∀ r : FileReport, decode? (encode r) = some r) ∧
      (Omits "language" FileReport.language ∧ Omits "deepAnalysis" FileReport.deepAnalysis) ∧
      (Omits "fixCode" Suggestion.fixCode ∧ Omits "impact" Suggestion.impact ∧
        Omits "fixKind" Suggestion.fixKind) ∧
      Omits "name" Finding.name ∧ Omits "dependencies" DeepAnalysis.dependencies ∧
      (∀ i : ImportSpec, decode? (encode i) = some i ∧
        (("default", Json.null) ∈ (encode i).fields ↔ i.default = none)) ∧
      KeepsIdentity IssueKind ∧ KeepsIdentity Impact ∧ KeepsIdentity FixKind ∧
      KeepsIdentity Severity ∧ KeepsIdentity FindingCategory ∧ KeepsIdentity Confidence := by
  refine ⟨decode_encode, omits_of_fileReport, omits_of_suggestion, omits_of_finding,
    omits_of_deepAnalysis, fun i => ⟨decode_encode i, ?_⟩, keepsIdentity_of_reports⟩
  obtain ⟨named, _ | default, source⟩ := i <;> simp [encode, Json.fields]

end SourceAudit
