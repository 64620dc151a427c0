import CachedViews.Source
import CachedViews.Proofs.Fields

/-
# Entries and the sources that they name

An entry of the configuration is a source if it is a path that is not empty, a source model
with good contents, or a mapping with templates or a directory in it and at most a text for a
namespace (`Value.NamesSource`). Of the entries that are none, those that name neither templates
nor a directory are refused (`Source.ofEntry_refused`). A mapping that names one of them and has
something wrong in it comes to a fault of another kind (`Source.ofEntry_mistyped`), and all other
entries pass (`Source.ofEntry_passes_iff`), whatever their templates are.

Key definitions: `Value.NamesSource`, `Value.NamesNothing`, `Value.Mistyped`.
Key theorems: `Source.ofEntry_refused`, `Source.ofEntry_mistyped`, `Source.ofEntry_passes_iff`,
`Source.mapM_eq_error_iff`.
-/

namespace CachedViews

/-! ### Kinds of entries -/

namespace Value

/-- The namespace of a mapping, nothing if it has none. -/
def namespaceOf (entries : List (Value × Value)) : Value :=
  (Value.entry? "namespace" entries).getD .null

/-- The namespace of a mapping is absent, nothing or a text. -/
def HasNamespace (entries : List (Value × Value)) : Prop :=
  namespaceOf entries = .null ∨ (namespaceOf entries).asText? ≠ none

/-- A mapping gives templates of its own. -/
def HasTemplates (entries : List (Value × Value)) : Prop :=
  ∃ v, entry? "templates" entries = some v ∧ v ≠ .null

/-- A mapping of names, or a future. -/
def AreTemplates (v : Value) : Prop :=
  (∃ entries, v = .dict entries ∧ ∀ f ∈ entries, f.1.string? ≠ none) ∨ ∃ result, v = .future result

/-- The path of a directory: any path that is not empty. -/
def IsDirectoryPath (v : Value) : Prop := ∃ s, v.path? = some s ∧ s ≠ ""

/-- The path that a mapping gives under the name of a directory, which octets may write. -/
def directory? : Value → Option String
  | .bytes octets => octetsText? octets
  | v => v.path?

/-- A mapping gives the path of a directory. -/
def IsDirectory (v : Value) : Prop := ∃ s, v.directory? = some s ∧ s ≠ ""

/-- An entry is a source. -/
inductive NamesSource : Value → Prop
  | path {v : Value} (h : IsDirectoryPath v) : NamesSource v
  | directorySource {path : String} {namesp : Option String} (h : path ≠ "") :
      NamesSource (.directorySource path namesp)
  | inlineSource {templates : Value} {namesp : Option String} (h : AreTemplates templates) :
      NamesSource (.inlineSource templates namesp)
  | templates {entries : List (Value × Value)} {v : Value}
      (hv : entry? "templates" entries = some v) (h : AreTemplates v) (hn : HasNamespace entries) :
      NamesSource (.dict entries)
  | dir {entries : List (Value × Value)} {v : Value} (hv : entry? "dir" entries = some v)
      (h : IsDirectory v) (hn : HasNamespace entries) : NamesSource (.dict entries)

/-- An entry names neither templates nor a directory. -/
def NamesNothing : Value → Prop
  | .dict entries => ¬HasTemplates entries ∧ ∀ v, entry? "dir" entries = some v → v.isTrue = false
  | .directorySource _ _ | .inlineSource _ _ => False
  | v => ¬IsDirectoryPath v

/-- A mapping names templates or a directory, but the namespace is no text, or the directory no
path. -/
def Mistyped : Value → Prop
  | .dict entries =>
    (HasTemplates entries ∧ ¬HasNamespace entries) ∨
      (¬HasTemplates entries ∧ ∃ v, entry? "dir" entries = some v ∧ v.isTrue = true ∧
        (v.directory? = none ∨ ¬HasNamespace entries))
  | _ => False

variable {v : Value} {entries : List (Value × Value)}

theorem isTrue_of_isDirectory (h : IsDirectory v) : v.isTrue = true := by
  obtain ⟨s, hs, hne⟩ := h
  cases v with
  | bytes octets =>
    cases octets with
    | nil => exact absurd (Option.some.inj hs).symm hne
    | cons b octets => rfl
  | _ => simp [directory?, path?] at hs <;> simp [isTrue, hs, hne]

theorem AreTemplates.ne_null (h : AreTemplates v) : v ≠ .null := by
  rintro rfl
  rcases h with ⟨_, h, -⟩ | ⟨_, h⟩ <;> cases h

theorem not_namesNothing_of_path (h : IsDirectoryPath v) : ¬v.NamesNothing := by
  obtain ⟨s, hs, hne⟩ := h
  cases v with
  | str t | markup t | path t => exact fun hn => hn ⟨s, hs, hne⟩
  | _ => nomatch hs

/-- An entry that names nothing is no source. -/
theorem NamesNothing.not_source (h : v.NamesNothing) : ¬v.NamesSource := by
  intro hs
  cases hs with
  | path hp => exact not_namesNothing_of_path hp h
  | directorySource => exact h
  | inlineSource => exact h
  | templates hv ht hn => exact h.1 ⟨_, hv, ht.ne_null⟩
  | dir hv hd hn =>
    have hfalse := h.2 _ hv
    rw [isTrue_of_isDirectory hd] at hfalse
    cases hfalse

/-- An entry that is mistyped is no source either. -/
theorem Mistyped.not_source (h : v.Mistyped) : ¬v.NamesSource := by
  intro hs
  cases v with
  | dict entries =>
    have hn : HasNamespace entries := by
      cases hs with
      | path hp =>
        obtain ⟨s, hs, -⟩ := hp
        cases hs
      | templates hv ht hn => exact hn
      | dir hv hd hn => exact hn
    rcases h with ⟨-, hbad⟩ | ⟨hnone, d, hd, htrue, hbad⟩
    · exact hbad hn
    · cases hs with
      | path hp =>
        obtain ⟨s, hs, -⟩ := hp
        cases hs
      | templates hv ht hn => exact hnone ⟨_, hv, ht.ne_null⟩
      | dir hv hp hn =>
        obtain rfl := Option.some.inj (hd.symm.trans hv)
        obtain ⟨s, hs, -⟩ := hp
        rcases hbad with hbad | hbad
        · cases hs.symm.trans hbad
        · exact hbad hn
  | _ => exact h

end Value

/-! ### What entries come to -/

namespace Source

open Value

variable {v : Value} {entries : List (Value × Value)}

theorem checkOptionalText_of_hasNamespace (h : HasNamespace entries) :
    ∃ n, checkOptionalText ["namespace"] (namespaceOf entries) = .ok n := by
  by_cases hnull : namespaceOf entries = .null
  · exact ⟨none, by rw [hnull]; rfl⟩
  · obtain ⟨s, hs⟩ := Option.ne_none_iff_exists'.1 (h.resolve_left hnull)
    exact ⟨some s, by simp [checkOptionalText, checkText, hs, Except.map]⟩

theorem checkOptionalText_of_not_hasNamespace (h : ¬HasNamespace entries) :
    ∃ fs, checkOptionalText ["namespace"] (namespaceOf entries) = .error fs := by
  obtain ⟨hnull, hs⟩ := not_or.1 h
  refine ⟨[⟨["namespace"], textProblem (namespaceOf entries)⟩], ?_⟩
  simp [checkOptionalText, checkText, not_not.1 hs, Except.map, Checked.fail]

theorem ofTemplateFields_eq (given namesp : Value) :
    ofTemplateFields [("templates", given), ("namespace", namesp)] =
      match checkOptionalText ["namespace"] namesp with
      | .ok n => .ok (.templates given n)
      | .error fs => .error (.validation "InlineSource" fs) := by
  rw [ofTemplateFields, lookup_field, if_pos rfl, lookup_field, if_neg (by decide),
    List.lookup_cons_self, Option.getD_some]
  cases checkOptionalText ["namespace"] namesp <;> rfl

theorem ofDirectoryFields_eq (path namesp : Value) :
    ofDirectoryFields [("path", path), ("namespace", namesp)] =
      match checkText ["path"] path, checkOptionalText ["namespace"] namesp with
      | .ok p, .ok n => .ok (.directory p n)
      | p, n => .error (.validation "DirectorySource" (p.faults ++ n.faults)) := by
  have hnamesp : [("path", path), ("namespace", namesp)].lookup "namespace" = some namesp := rfl
  unfold ofDirectoryFields
  cases hp : checkText ["path"] path <;> cases hn : checkOptionalText ["namespace"] namesp <;>
    simp only [List.lookup_cons_self, hnamesp, Option.getD_some, hp, hn]

/-- A directory whose path can be had comes to a source, if its namespace is good. -/
theorem ofDirectoryFields_of_directory {path : String} (h : v.directory? = some path)
    (namesp : Value) :
    (do ofDirectoryFields [("path", ← plainPath v), ("namespace", namesp)]) =
      match checkOptionalText ["namespace"] namesp with
      | .ok n => .ok (.directory path n)
      | .error fs => .error (.validation "DirectorySource" fs) := by
  obtain ⟨w, hplain, hw⟩ : ∃ w, plainPath v = .ok w ∧ w.asText? = some path := by
    cases v with
    | str s | markup s | path s | bytes octets => exact ⟨_, rfl, h⟩
    | _ => cases h
  have hpath : checkText ["path"] w = .ok path := by
    unfold checkText
    rw [hw]
  rw [hplain]
  change ofDirectoryFields [("path", w), ("namespace", namesp)] = _
  rw [ofDirectoryFields_eq, hpath]
  cases checkOptionalText ["namespace"] namesp <;> rfl

/-- A directory whose path cannot be had comes to a fault that is none of the library's own. -/
theorem ofDirectoryFields_of_not_directory (h : v.directory? = none) (namesp : Value) :
    ∃ f, (do ofDirectoryFields [("path", ← plainPath v), ("namespace", namesp)]) = .error f ∧
      ∀ w, f ≠ .view w := by
  cases v with
  | bytes octets =>
    have htext : (Value.bytes octets).asText? = none := h
    change ∃ f, ofDirectoryFields [("path", .bytes octets), ("namespace", namesp)] = .error f ∧ _
    rw [ofDirectoryFields_eq, checkText, htext]
    exact ⟨_, rfl, nofun⟩
  | str s | markup s | path s => cases h
  | _ => exact ⟨_, rfl, nofun⟩

/-- A mapping with templates comes to its templates. -/
theorem ofMapping_of_templates (h : entry? "templates" entries = some v) (hnull : v ≠ .null) :
    ofMapping entries =
      ofTemplateFields [("templates", v), ("namespace", namespaceOf entries)] := by
  rw [ofMapping, h]
  cases v <;> first | rfl | exact absurd rfl hnull

/-- A mapping without templates comes to its directory, if that is taken for true. -/
theorem ofMapping_of_not_templates (h : ¬HasTemplates entries) : ofMapping entries =
    match entry? "dir" entries with
    | some dir =>
      if dir.isTrue then do
        ofDirectoryFields [("path", ← plainPath dir), ("namespace", namespaceOf entries)]
      else .error (.view (.source (Value.dict entries).shown))
    | none => .error (.view (.source (Value.dict entries).shown)) := by
  rw [ofMapping]
  cases ht : entry? "templates" entries with
  | none => rfl
  | some v =>
    obtain rfl : v = .null := of_not_not fun hv => h ⟨v, ht, hv⟩
    rfl

/-- **An entry that names nothing is refused.** -/
theorem ofEntry_refused (h : v.NamesNothing) : ofEntry v = .error (.view (.source v.shown)) := by
  cases v with
  | dict entries =>
    obtain ⟨hnone, hdir⟩ := h
    change ofMapping entries = _
    rw [ofMapping_of_not_templates hnone]
    cases hd : entry? "dir" entries with
    | none => rfl
    | some d => simp only [hdir d hd, Bool.false_eq_true, if_false]
  | directorySource path namesp => exact h.elim
  | inlineSource templates namesp => exact h.elim
  | str s | markup s | path s =>
    obtain rfl : s = "" := of_not_not fun hs => h ⟨s, rfl, hs⟩
    rfl
  | _ => rfl

/-- **An entry that is mistyped comes to a fault of another kind.** -/
theorem ofEntry_mistyped (h : v.Mistyped) :
    ∃ f, ofEntry v = .error f ∧ ∀ w, f ≠ .view w := by
  cases v with
  | dict entries =>
    change ∃ f, ofMapping entries = .error f ∧ _
    rcases h with ⟨⟨t, ht, hnull⟩, hbad⟩ | ⟨hnone, d, hd, htrue, hbad⟩
    · obtain ⟨fs, hfs⟩ := checkOptionalText_of_not_hasNamespace hbad
      rw [ofMapping_of_templates ht hnull, ofTemplateFields_eq, hfs]
      exact ⟨_, rfl, nofun⟩
    · rw [ofMapping_of_not_templates hnone]
      simp only [hd, htrue, if_true]
      cases hp : d.directory? with
      | none => exact ofDirectoryFields_of_not_directory hp _
      | some path =>
        have hnamesp := hbad.resolve_left (by rw [hp]; exact Option.some_ne_none _)
        obtain ⟨fs, hfs⟩ := checkOptionalText_of_not_hasNamespace hnamesp
        rw [ofDirectoryFields_of_directory hp, hfs]
        exact ⟨_, rfl, nofun⟩
  | _ => exact h.elim

theorem ofEntry_path (h : IsDirectoryPath v) : ∃ s, ofEntry v = .ok s := by
  obtain ⟨t, ht, hne⟩ := h
  cases v with
  | str s | markup s | path s =>
    obtain rfl := Option.some.inj ht
    exact ⟨.directory s none, by simp [ofEntry, path?]⟩
  | _ => cases ht

/-- **All other entries pass.** -/
theorem ofEntry_passes (hnothing : ¬v.NamesNothing) (htyped : ¬v.Mistyped) :
    ∃ s, ofEntry v = .ok s := by
  cases v with
  | dict entries =>
    change ∃ s, ofMapping entries = .ok s
    by_cases ht : HasTemplates entries
    · obtain ⟨t, ht', hnull⟩ := ht
      have hn : HasNamespace entries := of_not_not fun hn => htyped (.inl ⟨⟨t, ht', hnull⟩, hn⟩)
      obtain ⟨n, hok⟩ := checkOptionalText_of_hasNamespace hn
      rw [ofMapping_of_templates ht' hnull, ofTemplateFields_eq, hok]
      exact ⟨_, rfl⟩
    · obtain ⟨d, hd, htrue⟩ : ∃ d, entry? "dir" entries = some d ∧ d.isTrue = true := by
        refine of_not_not fun hno => hnothing ⟨ht, fun d hd => ?_⟩
        exact Bool.eq_false_iff.2 fun htrue => hno ⟨d, hd, htrue⟩
      have hgood : ¬(d.directory? = none ∨ ¬HasNamespace entries) := fun hbad =>
        htyped (.inr ⟨ht, d, hd, htrue, hbad⟩)
      obtain ⟨hp, hn⟩ := not_or.1 hgood
      obtain ⟨path, hp⟩ := Option.ne_none_iff_exists'.1 hp
      obtain ⟨n, hok⟩ := checkOptionalText_of_hasNamespace (not_not.1 hn)
      rw [ofMapping_of_not_templates ht]
      simp only [hd, htrue, if_true]
      rw [ofDirectoryFields_of_directory hp, hok]
      exact ⟨_, rfl⟩
  | directorySource path namesp => exact ⟨_, rfl⟩
  | inlineSource templates namesp => exact ⟨_, rfl⟩
  | _ => exact ofEntry_path (not_not.1 hnothing)

/-- An entry passes exactly if it neither names nothing nor is mistyped. -/
theorem ofEntry_passes_iff : (∃ s, ofEntry v = .ok s) ↔ ¬v.NamesNothing ∧ ¬v.Mistyped := by
  refine ⟨fun ⟨s, hs⟩ => ⟨fun hn => ?_, fun ht => ?_⟩, fun h => ofEntry_passes h.1 h.2⟩
  · cases hs.symm.trans (ofEntry_refused hn)
  · obtain ⟨f, hf, -⟩ := ofEntry_mistyped ht
    cases hs.symm.trans hf

/-! ### Several entries -/

/-- Several entries fail with the first one that does. -/
theorem mapM_eq_error_iff {α β ε : Type} {step : α → Except ε β} {as : List α} {f : ε} :
    as.mapM step = .error f ↔ ∃ before a after, as = before ++ a :: after ∧
      (∀ b ∈ before, ∃ r, step b = .ok r) ∧ step a = .error f := by
  induction as with
  | nil => exact iff_of_false (fun h => nomatch h) fun ⟨before, a, after, h, _⟩ => by simp at h
  | cons a as ih =>
    rw [List.mapM_cons]
    cases ha : step a with
    | error g =>
      constructor
      · intro h
        obtain rfl : g = f := Except.error.inj h
        exact ⟨[], a, as, rfl, fun _ hb => (nomatch hb), ha⟩
      · rintro ⟨before, b, after, h, hok, hb⟩
        cases before with
        | nil =>
          obtain ⟨rfl, -⟩ := List.cons.inj h
          obtain rfl := Except.error.inj (ha.symm.trans hb)
          rfl
        | cons c before =>
          obtain ⟨rfl, -⟩ := List.cons.inj h
          obtain ⟨r, hr⟩ := hok a List.mem_cons_self
          cases ha.symm.trans hr
    | ok r =>
      have hrest : (Except.ok r >>= fun r => as.mapM step >>= fun rs => pure (r :: rs)) = .error f ↔
          as.mapM step = .error f := by
        cases as.mapM step <;> simp [bind, Except.bind, pure, Except.pure]
      rw [hrest, ih]
      constructor
      · rintro ⟨before, b, after, rfl, hok, hb⟩
        refine ⟨a :: before, b, after, rfl, fun c hc => ?_, hb⟩
        rcases List.mem_cons.1 hc with rfl | hc
        · exact ⟨r, ha⟩
        · exact hok c hc
      · rintro ⟨before, b, after, h, hok, hb⟩
        cases before with
        | nil =>
          obtain ⟨rfl, -⟩ := List.cons.inj h
          cases ha.symm.trans hb
        | cons c before =>
          obtain ⟨rfl, rfl⟩ := List.cons.inj h
          exact ⟨before, b, after, rfl, fun d hd => hok d (List.mem_cons_of_mem _ hd), hb⟩

end Source

end CachedViews
