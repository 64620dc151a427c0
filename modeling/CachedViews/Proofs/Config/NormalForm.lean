import CachedViews.Config
import CachedViews.Proofs.Fields

/-
# Configurations in normal form

Checking a setting brings it into a normal form: an extension with its dot, a directory as a text,
no layout for an empty one, mappings with texts for keys. A check accepts what it has made and
leaves it as it is, so does every configuration that was made from fields pass the checks of all
its settings again (`Config.normal_of_ofFields`). The defaults are normal forms, too. The one
exception is the empty layout that empty octets leave, which becomes none when it is checked again
(`Config.checkDefaultLayout_again`).

Key definitions: `Config.Normal`.
Key theorems: `checkFields_ofFields`, `callable_of_checkCallables`, `Config.normal_default`,
`Config.normal_of_ofFields`.
-/

namespace CachedViews

/-! ### Mappings -/

/-- Entries with names pass if their values do. -/
theorem checkEntries_named {place : List String}
    {check : List String → Value → Checked Value} {es : List (Value × Value)}
    (hk : ∀ f ∈ es, f.1.string? ≠ none)
    (hv : ∀ f ∈ es, ∀ place, check place f.2 = .ok f.2) :
    checkEntries place check es = .ok (Value.stringFields es) := by
  induction es with
  | nil => rfl
  | cons f es ih =>
    obtain ⟨k, v⟩ := f
    have hkey := hk (k, v) List.mem_cons_self
    have hvalue := hv (k, v) List.mem_cons_self (place ++ [keyPlace k])
    have hrest := ih (fun f hf => hk f (List.mem_cons_of_mem _ hf))
      fun f hf => hv f (List.mem_cons_of_mem _ hf)
    simp only at hkey hvalue
    rw [checkEntries, hvalue, hrest]
    cases k <;> first | exact absurd rfl hkey | rfl

/-- A mapping with names for keys passes if its values do. -/
theorem checkFields_named {place : List String} {check : List String → Value → Checked Value}
    {es : List (Value × Value)} (hk : ∀ f ∈ es, f.1.string? ≠ none)
    (hv : ∀ f ∈ es, ∀ place, check place f.2 = .ok f.2) :
    checkFields place check (.dict es) = .ok (Value.stringFields es) := by
  have hnamed : (es.all fun e => e.1.string?.isSome) = true :=
    List.all_eq_true.2 fun f hf => Option.isSome_iff_ne_none.2 (hk f hf)
  change (checkEntries place check es).map (gathered es) = _
  rw [checkEntries_named hk hv]
  exact congrArg Except.ok (if_pos hnamed)

/-- Fields pass if their values do. -/
theorem checkFields_ofFields {place : List String} {check : List String → Value → Checked Value}
    {fs : List (String × Value)} (hv : ∀ f ∈ fs, ∀ place, check place f.2 = .ok f.2) :
    checkFields place check (Value.ofFields fs) = .ok fs := by
  have hentries : ∀ e ∈ fs.map fun f => (Value.str f.1, f.2),
      e.1.string? ≠ none ∧ ∀ place, check place e.2 = .ok e.2 := by
    intro e he
    obtain ⟨f, hf, rfl⟩ := List.mem_map.1 he
    exact ⟨Option.some_ne_none f.1, hv f hf⟩
  exact (checkFields_named (fun e he => (hentries e he).1) fun e he => (hentries e he).2).trans
    (congrArg _ (stringFields_map fs))

theorem checkMapping_named {place : List String} {es : List (Value × Value)}
    (hk : ∀ f ∈ es, f.1.string? ≠ none) :
    checkMapping place (.dict es) = .ok (Value.stringFields es) :=
  checkFields_named hk fun _ _ _ => rfl

theorem checkMapping_ofFields (place : List String) (fs : List (String × Value)) :
    checkMapping place (Value.ofFields fs) = .ok fs :=
  checkFields_ofFields fun _ _ _ => rfl

theorem checkCallables_ofFields {place : List String} {fs : List (String × Value)}
    (h : ∀ f ∈ fs, f.2.isCallable = true) :
    checkCallables place (Value.ofFields fs) = .ok fs :=
  checkFields_ofFields fun f hf _ => if_pos (h f hf)

theorem checkEntries_cons_eq_ok {α : Type} {place : List String}
    {check : List String → Value → Checked α} {k v : Value} {es : List (Value × Value)}
    {fs : List (String × α)} (h : checkEntries place check ((k, v) :: es) = .ok fs) :
    ∃ s a more, check (place ++ [keyPlace k]) v = .ok a ∧
      checkEntries place check es = .ok more ∧ fs = (s, a) :: more := by
  unfold checkEntries at h
  dsimp only at h
  generalize checkText (place ++ [keyPlace k, "[key]"]) k = key at h
  generalize check (place ++ [keyPlace k]) v = value at h ⊢
  generalize checkEntries place check es = rest at h ⊢
  cases key <;> cases value <;> cases rest <;> cases h
  exact ⟨_, _, _, rfl, rfl, rfl⟩

/-- What a check promises of a value holds of the values of all fields that pass. -/
theorem forall_of_checkFields {α : Type} {place : List String}
    {check : List String → Value → Checked α} {P : α → Prop}
    (hcheck : ∀ place v a, check place v = .ok a → P a) {v : Value} {fs : List (String × α)}
    (h : checkFields place check v = .ok fs) : ∀ f ∈ fs, P f.2 := by
  cases v with
  | dict es =>
    have hentries : ∀ (es : List (Value × Value)) (gs : List (String × α)),
        checkEntries place check es = .ok gs → ∀ f ∈ gs, P f.2 := by
      intro es
      induction es with
      | nil =>
        intro gs hgs
        obtain rfl := Except.ok.inj hgs
        nofun
      | cons g es ih =>
        intro gs hgs
        obtain ⟨s, a, more, hvalue, hrest, rfl⟩ := checkEntries_cons_eq_ok hgs
        exact List.forall_mem_cons.2 ⟨hcheck _ _ _ hvalue, ih more hrest⟩
    change (checkEntries place check es).map (gathered es) = .ok fs at h
    cases hes : checkEntries place check es with
    | error faults =>
      rw [hes] at h
      cases h
    | ok gs =>
      rw [hes] at h
      obtain rfl := Except.ok.inj h
      unfold gathered
      split
      · exact hentries es gs hes
      · exact forall_overlay nofun (hentries es gs hes)
  | _ => cases h

theorem callable_of_checkCallables {place : List String} {v : Value}
    {fs : List (String × Value)} (h : checkCallables place v = .ok fs) :
    ∀ f ∈ fs, f.2.isCallable = true := by
  refine forall_of_checkFields (P := fun w : Value => w.isCallable = true) ?_ h
  intro place v w hw
  unfold checkCallable at hw
  split at hw
  · rename_i hcall
    exact Except.ok.inj hw ▸ hcall
  · cases hw

namespace Config

/-! ### Single settings -/

theorem checkExtname_of_text {v : Value} {t : String} (h : checkText ["extname"] v = .ok t) :
    checkExtname v = checkExtname (.str t) := by
  unfold checkExtname
  rw [h]
  rfl

theorem checkExtname_str {s : String} (hs : s ≠ "") (hdot : s.toList.head? = some '.') :
    checkExtname (.str s) = .ok s := by
  change (if s = "" then _ else if s.toList.head? = some '.' then Except.ok s else _) = _
  rw [if_neg hs, if_pos hdot]

theorem checkExtname_again {v : Value} {s : String} (h : checkExtname v = .ok s) :
    checkExtname (.str s) = .ok s := by
  cases ht : checkText ["extname"] v with
  | error fs =>
    unfold checkExtname at h
    rw [ht] at h
    cases h
  | ok t =>
    rw [checkExtname_of_text ht] at h
    change (if t = "" then Checked.fail ["extname"] .emptyExtension
      else if t.toList.head? = some '.' then .ok t else .ok ("." ++ t)) = _ at h
    by_cases hne : t = ""
    · rw [if_pos hne] at h
      cases h
    · rw [if_neg hne] at h
      by_cases hdot : t.toList.head? = some '.'
      · rw [if_pos hdot] at h
        obtain rfl := Except.ok.inj h
        exact checkExtname_str hne hdot
      · rw [if_neg hdot] at h
        obtain rfl := Except.ok.inj h
        exact checkExtname_str (by simp) (by simp)

theorem checkLayoutsDir_again (s : String) : checkLayoutsDir (.str s) = .ok s := rfl

theorem checkPartialsDir_again (p : PartialsDir) : checkPartialsDir p.value = .ok p := by
  cases p with
  | one s => rfl
  | several es => rfl

theorem checkDefaultLayout_str {s : String} (hs : s ≠ "") :
    checkDefaultLayout (.str s) = .ok (some s) := by
  have hkept : withoutLayout (.str s) = .str s := by
    unfold withoutLayout
    split <;> simp_all
  unfold checkDefaultLayout
  rw [hkept]
  rfl

/-- A layout is left as it is unless it is the empty one, which becomes none. -/
theorem checkDefaultLayout_again (layout : Option String) :
    checkDefaultLayout ((layout.map Value.str).getD .null) = .ok (layout.filter (· ≠ "")) := by
  cases layout with
  | none => rfl
  | some s =>
    by_cases hs : s = ""
    · subst hs
      rfl
    · rw [Option.filter_some_pos (by simpa using hs)]
      exact checkDefaultLayout_str hs

theorem checkHelpers_again {v : Value} {fs : List (String × Value)} (h : checkHelpers v = .ok fs) :
    checkHelpers (Value.ofFields fs) = .ok fs :=
  checkCallables_ofFields (callable_of_checkCallables h)

theorem checkCompilerOptions_again (fs : List (String × Value)) :
    checkCompilerOptions (Value.ofFields fs) = .ok fs := checkMapping_ofFields _ fs

/-! ### Whole configurations -/

/-- Every setting passes its check and is left as it is, but for a layout that is empty. -/
structure Normal (c : Config) : Prop where
  extname : checkExtname (c.value .extname) = .ok c.extname
  layoutsDir : checkLayoutsDir (c.value .layoutsDir) = .ok c.layoutsDir
  partialsDir : checkPartialsDir (c.value .partialsDir) = .ok c.partialsDir
  defaultLayout :
    checkDefaultLayout (c.value .defaultLayout) = .ok (c.defaultLayout.filter (· ≠ ""))
  helpers : checkHelpers (c.value .helpers) = .ok c.helpers
  compilerOptions : checkCompilerOptions (c.value .compilerOptions) = .ok c.compilerOptions

theorem normal_default : ({} : Config).Normal := ⟨rfl, rfl, rfl, rfl, rfl, rfl⟩

/-- A setting has its default or passed its check. -/
theorem checkSetting_cases {α : Type} {fields : List (String × Value)} {s : Setting} {default a : α}
    {check : Value → Checked α} (h : checkSetting fields s default check = .ok a) :
    a = default ∨ ∃ v, fields.lookup s.key = some v ∧ check v = .ok a := by
  unfold checkSetting at h
  cases hv : fields.lookup s.key with
  | none =>
    rw [hv] at h
    exact .inl (Except.ok.inj h).symm
  | some v =>
    rw [hv] at h
    exact .inr ⟨v, rfl, h⟩

/-- **What fields describe is in normal form.** -/
theorem normal_of_ofFields {fields : List (String × Value)} {c : Config}
    (h : ofFields fields = .ok c) : c.Normal := by
  unfold ofFields at h
  dsimp only at h
  split at h
  · rename_i e l p d hs o he hl hp hd hh ho hunknown
    obtain rfl := Except.ok.inj h
    constructor
    · rcases checkSetting_cases he with rfl | ⟨v, -, hv⟩
      · exact normal_default.extname
      · exact checkExtname_again hv
    · exact checkLayoutsDir_again l
    · exact checkPartialsDir_again p
    · exact checkDefaultLayout_again d
    · rcases checkSetting_cases hh with rfl | ⟨v, -, hv⟩
      · exact normal_default.helpers
      · exact checkHelpers_again hv
    · exact checkCompilerOptions_again o
  · cases h

end Config

end CachedViews
