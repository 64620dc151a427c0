import CachedViews.Proofs.Config.NormalForm

/-
# Configurations setting by setting

The six checks are one, `Config.validated`, once what they make is seen as a value. It leaves what
it has made as it is, but for the layout that empty octets leave: it is the empty text, and a second
check makes it none (`Config.validated_again`, `Config.tidied`). Fields describe a configuration
just when each setting has the value that its field has in checked form, or its default without
one, the given settings are those with a field, and there are no other fields
(`Config.ofFields_eq_ok_iff`). What fields say of one setting has no part in any other, so the
fields of a configuration describe it again, and fields on top of them change just the settings
they name.

Key definitions: `Config.validated`, `Config.tidied`, `Config.settled`, `Config.Known`.
Key theorems: `Config.validated_again`, `Config.validated_again_iff`, `Config.value_ext`,
`Config.ofFields_eq_ok_iff`, `Config.ofFields_succeeds_iff`.
-/

namespace CachedViews

/-- A mapping holds one list of fields only. -/
theorem ofFields_injective : Function.Injective Value.ofFields := fun fs gs h => by
  rw [← stringFields_map fs, ← stringFields_map gs]
  exact congrArg Value.stringFields (Value.dict.inj h)

theorem partialsDir_value_injective : Function.Injective PartialsDir.value := fun p q h => by
  cases p <;> cases q <;> cases h <;> rfl

namespace Config

/-- No layout is nothing. -/
def layoutValue (layout : Option String) : Value := (layout.map Value.str).getD .null

theorem layoutValue_injective : Function.Injective layoutValue := fun a b h => by
  cases a <;> cases b <;> cases h <;> rfl

/-- What the check of a setting makes of a value. -/
def validated (s : Setting) (v : Value) : Checked Value :=
  match s with
  | .extname => (checkExtname v).map Value.str
  | .layoutsDir => (checkLayoutsDir v).map Value.str
  | .partialsDir => (checkPartialsDir v).map PartialsDir.value
  | .defaultLayout => (checkDefaultLayout v).map layoutValue
  | .helpers => (checkHelpers v).map Value.ofFields
  | .compilerOptions => (checkCompilerOptions v).map Value.ofFields

theorem map_eq_ok_iff {α β : Type} {x : Checked α} {g : α → β} {b : β} :
    x.map g = .ok b ↔ ∃ a, x = .ok a ∧ g a = b := by
  cases x <;> simp [Except.map]

/-- What a second check makes of a value that has passed one: an empty layout becomes none. -/
def rechecked : Setting → Value → Value
  | .defaultLayout, .str "" => .null
  | _, w => w

theorem rechecked_eq_iff (s : Setting) (w : Value) :
    rechecked s w = w ↔ ¬(s = .defaultLayout ∧ w = .str "") := by
  by_cases h : s = .defaultLayout ∧ w = .str ""
  · obtain ⟨rfl, rfl⟩ := h
    exact iff_of_false nofun (not_not.2 ⟨rfl, rfl⟩)
  · refine iff_of_true ?_ h
    unfold rechecked
    split
    · exact absurd ⟨rfl, rfl⟩ h
    · rfl

theorem rechecked_of_ne {s : Setting} (h : s ≠ .defaultLayout) (w : Value) : rechecked s w = w :=
  (rechecked_eq_iff s w).2 fun hw => h hw.1

/-- The configuration with no layout in the place of an empty one. -/
def tidied (c : Config) : Config := { c with defaultLayout := c.defaultLayout.filter (· ≠ "") }

theorem layoutValue_filter (layout : Option String) :
    layoutValue (layout.filter (· ≠ "")) = rechecked .defaultLayout (layoutValue layout) := by
  cases layout with
  | none => rfl
  | some s =>
    by_cases hs : s = ""
    · subst hs
      rfl
    · rw [Option.filter_some_pos (by simpa using hs)]
      exact ((rechecked_eq_iff _ _).2 fun h => hs (Value.str.inj h.2)).symm

theorem rechecked_value (c : Config) (s : Setting) :
    rechecked s (c.value s) = c.tidied.value s := by
  by_cases h : s = .defaultLayout
  · subst h
    exact (layoutValue_filter c.defaultLayout).symm
  · rw [rechecked_of_ne h]
    cases s <;> first | rfl | exact absurd rfl h

/-- **A second check** leaves what the first has made as it is, but for the empty layout. -/
theorem validated_again {s : Setting} {v w : Value} (h : validated s v = .ok w) :
    validated s w = .ok (rechecked s w) := by
  cases s with
  | extname =>
    obtain ⟨t, ht, rfl⟩ := map_eq_ok_iff.1 h
    exact map_eq_ok_iff.2 ⟨t, checkExtname_again ht, (rechecked_of_ne (by decide) _).symm⟩
  | layoutsDir =>
    obtain ⟨t, -, rfl⟩ := map_eq_ok_iff.1 h
    exact map_eq_ok_iff.2 ⟨t, checkLayoutsDir_again t, (rechecked_of_ne (by decide) _).symm⟩
  | partialsDir =>
    obtain ⟨p, -, rfl⟩ := map_eq_ok_iff.1 h
    exact map_eq_ok_iff.2 ⟨p, checkPartialsDir_again p, (rechecked_of_ne (by decide) _).symm⟩
  | defaultLayout =>
    obtain ⟨l, -, rfl⟩ := map_eq_ok_iff.1 h
    exact map_eq_ok_iff.2 ⟨_, checkDefaultLayout_again l, layoutValue_filter l⟩
  | helpers =>
    obtain ⟨fs, hfs, rfl⟩ := map_eq_ok_iff.1 h
    exact map_eq_ok_iff.2 ⟨fs, checkHelpers_again hfs, (rechecked_of_ne (by decide) _).symm⟩
  | compilerOptions =>
    obtain ⟨fs, -, rfl⟩ := map_eq_ok_iff.1 h
    exact map_eq_ok_iff.2 ⟨fs, checkCompilerOptions_again fs, (rechecked_of_ne (by decide) _).symm⟩

/-- A check leaves what it has made as it is exactly if that is no empty layout. -/
theorem validated_again_iff {s : Setting} {v w : Value} (h : validated s v = .ok w) :
    validated s w = .ok w ↔ ¬(s = .defaultLayout ∧ w = .str "") := by
  rw [validated_again h, Except.ok.injEq]
  exact rechecked_eq_iff s w

/-- A configuration is known by its values and by which of its settings were given. -/
theorem value_ext {c d : Config} (hv : ∀ s, c.value s = d.value s)
    (he : c.explicit = d.explicit) : c = d := by
  obtain ⟨extname, layoutsDir, partialsDir, defaultLayout, helpers, options, explicit⟩ := c
  obtain ⟨extname', layoutsDir', partialsDir', defaultLayout', helpers', options', explicit'⟩ := d
  congr
  · exact Value.str.inj (hv .extname)
  · exact Value.str.inj (hv .layoutsDir)
  · exact partialsDir_value_injective (hv .partialsDir)
  · exact layoutValue_injective (hv .defaultLayout)
  · exact ofFields_injective (hv .helpers)
  · exact ofFields_injective (hv .compilerOptions)

/-! ### The settings that fields describe -/

/-- The value of a setting that fields describe: the one they give in checked form, or else the
default. -/
def settled (fields : List (String × Value)) (s : Setting) : Checked Value :=
  match fields.lookup s.key with
  | some v => validated s v
  | none => .ok (({} : Config).value s)

variable {fields : List (String × Value)}

/-- There are no fields but those of settings. -/
def Known (fields : List (String × Value)) : Prop := ∀ f ∈ fields, ∃ s : Setting, s.key = f.1

theorem unknownFields_eq_nil_iff : unknownFields fields = [] ↔ Known fields := by
  unfold unknownFields Known
  rw [List.map_eq_nil_iff, List.filter_eq_nil_iff]
  refine forall₂_congr fun f _ => ?_
  simp only [Bool.not_eq_true, Bool.not_eq_false', List.any_eq_true, decide_eq_true_eq]
  exact exists_congr fun s => and_iff_right (Setting.mem_all s)

/-- A setting passes with a value just when fields settle it so. -/
theorem checkSetting_eq_ok_iff {α : Type} {check : Value → Checked α} {g : α → Value}
    (fields : List (String × Value)) (s : Setting) (default a : α) (hg : Function.Injective g)
    (hcheck : ∀ v, validated s v = (check v).map g)
    (hdefault : ({} : Config).value s = g default) :
    checkSetting fields s default check = .ok a ↔ settled fields s = .ok (g a) := by
  have hmap : settled fields s = (checkSetting fields s default check).map g := by
    unfold settled checkSetting
    cases fields.lookup s.key with
    | none => exact congrArg _ hdefault
    | some v => exact hcheck v
  rw [hmap, map_eq_ok_iff]
  exact ⟨fun h => ⟨a, h, rfl⟩, fun ⟨b, hb, he⟩ => hg he ▸ hb⟩

/-- **What fields describe**, setting by setting. -/
theorem ofFields_eq_ok_iff {c : Config} :
    ofFields fields = .ok c ↔
      (∀ s, settled fields s = .ok (c.value s)) ∧ Known fields ∧
        c.explicit = givenSettings fields := by
  have hextname := fun a =>
    checkSetting_eq_ok_iff fields .extname ({} : Config).extname a
      (fun _ _ => Value.str.inj) (fun _ => rfl) rfl
  have hlayoutsDir := fun a =>
    checkSetting_eq_ok_iff fields .layoutsDir ({} : Config).layoutsDir a
      (fun _ _ => Value.str.inj) (fun _ => rfl) rfl
  have hpartialsDir := fun a =>
    checkSetting_eq_ok_iff fields .partialsDir ({} : Config).partialsDir a
      partialsDir_value_injective (fun _ => rfl) rfl
  have hdefaultLayout := fun a =>
    checkSetting_eq_ok_iff fields .defaultLayout ({} : Config).defaultLayout a
      layoutValue_injective (fun _ => rfl) rfl
  have hhelpers := fun a =>
    checkSetting_eq_ok_iff fields .helpers ({} : Config).helpers a
      ofFields_injective (fun _ => rfl) rfl
  have hoptions := fun a =>
    checkSetting_eq_ok_iff fields .compilerOptions ({} : Config).compilerOptions a
      ofFields_injective (fun _ => rfl) rfl
  dsimp only at hextname hlayoutsDir hpartialsDir hdefaultLayout hhelpers hoptions
  rw [← unknownFields_eq_nil_iff]
  constructor
  · intro h
    unfold ofFields at h
    dsimp only at h
    split at h
    · rename_i e l p d hs o he hl hp hd hh ho hunknown
      obtain rfl := Except.ok.inj h
      refine ⟨fun s => ?_, hunknown, rfl⟩
      cases s with
      | extname => exact (hextname e).1 he
      | layoutsDir => exact (hlayoutsDir l).1 hl
      | partialsDir => exact (hpartialsDir p).1 hp
      | defaultLayout => exact (hdefaultLayout d).1 hd
      | helpers => exact (hhelpers hs).1 hh
      | compilerOptions => exact (hoptions o).1 ho
    · cases h
  · rintro ⟨hsettled, hunknown, hexplicit⟩
    obtain ⟨e, l, p, d, hs, o, given⟩ := c
    obtain rfl : given = givenSettings fields := hexplicit
    unfold ofFields
    simp only [(hextname e).2 (hsettled .extname), (hlayoutsDir l).2 (hsettled .layoutsDir),
      (hpartialsDir p).2 (hsettled .partialsDir), (hdefaultLayout d).2 (hsettled .defaultLayout),
      (hhelpers hs).2 (hsettled .helpers), (hoptions o).2 (hsettled .compilerOptions), hunknown]

/-- What a setting is settled to is its value in some configuration. -/
theorem exists_value_of_settled {s : Setting} {v : Value} (h : settled fields s = .ok v) :
    ∃ c : Config, c.value s = v := by
  unfold settled at h
  split at h
  · cases s with
    | extname =>
      obtain ⟨t, -, rfl⟩ := map_eq_ok_iff.1 h
      exact ⟨{ extname := t }, rfl⟩
    | layoutsDir =>
      obtain ⟨t, -, rfl⟩ := map_eq_ok_iff.1 h
      exact ⟨{ layoutsDir := t }, rfl⟩
    | partialsDir =>
      obtain ⟨p, -, rfl⟩ := map_eq_ok_iff.1 h
      exact ⟨{ partialsDir := p }, rfl⟩
    | defaultLayout =>
      obtain ⟨l, -, rfl⟩ := map_eq_ok_iff.1 h
      exact ⟨{ defaultLayout := l }, rfl⟩
    | helpers =>
      obtain ⟨fs, -, rfl⟩ := map_eq_ok_iff.1 h
      exact ⟨{ helpers := fs }, rfl⟩
    | compilerOptions =>
      obtain ⟨fs, -, rfl⟩ := map_eq_ok_iff.1 h
      exact ⟨{ compilerOptions := fs }, rfl⟩
  · exact ⟨{}, Except.ok.inj h⟩

/-- **When fields describe a configuration**: each is known, and each setting can be settled. -/
theorem ofFields_succeeds_iff :
    (∃ c, ofFields fields = .ok c) ↔ Known fields ∧ ∀ s, ∃ v, settled fields s = .ok v := by
  constructor
  · rintro ⟨c, hc⟩
    obtain ⟨hsettled, hknown, -⟩ := ofFields_eq_ok_iff.1 hc
    exact ⟨hknown, fun s => ⟨_, hsettled s⟩⟩
  · rintro ⟨hknown, hsettled⟩
    choose v hv using hsettled
    choose f hf using fun s => exists_value_of_settled (hv s)
    let c : Config := ⟨(f .extname).extname, (f .layoutsDir).layoutsDir,
      (f .partialsDir).partialsDir, (f .defaultLayout).defaultLayout, (f .helpers).helpers,
      (f .compilerOptions).compilerOptions, givenSettings fields⟩
    have hvalue : ∀ s, c.value s = (f s).value s := fun s => by cases s <;> rfl
    exact ⟨c, ofFields_eq_ok_iff.2 ⟨fun s => by rw [hvalue, hf, hv], hknown, rfl⟩⟩

/-- A value that was settled from given fields passes its check again. -/
theorem validated_of_settled {s : Setting} {v w : Value} (hw : fields.lookup s.key = some w)
    (h : settled fields s = .ok v) : validated s v = .ok (rechecked s v) := by
  unfold settled at h
  rw [hw] at h
  exact validated_again h

instance : LawfulBEq Setting where
  eq_of_beq {s t} h := by cases s <;> cases t <;> first | rfl | exact absurd h (by decide)
  rfl {s} := by cases s <;> rfl

/-- The settings without a field are those left at their defaults. -/
theorem isDefault_of_ofFields {c : Config} (h : ofFields fields = .ok c) (s : Setting) :
    c.isDefault s = (fields.lookup s.key).isNone := by
  obtain ⟨-, -, hexplicit⟩ := ofFields_eq_ok_iff.1 h
  have hgiven : (givenSettings fields).contains s = (fields.lookup s.key).isSome := by
    unfold givenSettings
    rw [Bool.eq_iff_iff, List.contains_iff_mem, List.mem_filter, and_iff_right s.mem_all]
  unfold isDefault
  rw [hexplicit, hgiven, Option.not_isSome]

theorem known_overlay {below above : List (String × Value)} :
    Known (Value.overlay below above) ↔ Known below ∧ Known above := by
  have hnames : ∀ fields : List (String × Value),
      Known fields ↔ ∀ n ∈ fields.map Prod.fst, ∃ s : Setting, s.key = n := fun fields => by
    unfold Known
    rw [List.forall_mem_map]
  simp only [hnames, mem_names_overlay, or_imp, forall_and]

/-! ### The fields of a configuration -/

/-- A configuration gives its settings under their keys. -/
theorem lookup_fields (c : Config) (s : Setting) :
    c.fields.lookup s.key = if c.isDefault s then none else some (c.value s) := by
  unfold fields isDefault
  induction c.explicit with
  | nil => rfl
  | cons t given ih =>
    rw [List.map_cons, lookup_field, ih]
    by_cases h : s = t
    · simp [h]
    · rw [if_neg fun hk => h (Setting.key_injective s t hk)]
      simp [h]

theorem known_fields (c : Config) : Known c.fields := fun f hf => by
  obtain ⟨s, -, rfl⟩ := List.mem_map.1 hf
  exact ⟨s, rfl⟩

end Config

end CachedViews
