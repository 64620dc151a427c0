import CachedViews.Proofs.Config.Settings

/-
# Configurations with options on top

A configuration is changed by laying options on top of its fields and checking the whole again. What
comes out is no further from the configuration than the options say: the settings they name have
their values in checked form and count as given, and all others keep value and default as they were
(`Config.Takes`). That leaves one configuration only (`Config.Takes.unique`), so no options change
nothing, and options on top of options are the same as both at once.

There is one exception. Empty octets pass for a layout and leave an empty text, and when that is
checked again, it becomes none (`Config.tidied`). A configuration drifts exactly if it has such a
layout (`Config.drifts_only_with_empty_layout`).

Key definitions: `Config.Made`, `Config.ValidOptions`, `Config.Takes`.
Key theorems: `Config.Made.ext`, `Config.Takes.cancel`, `Config.exists_overlaid`,
`Config.drifts_only_with_empty_layout`.
-/

namespace CachedViews

namespace Config

/-- The configuration was made from fields. -/
def Made (c : Config) : Prop := ∃ fields, ofFields fields = .ok c

/-- Options for settings, each named once, that pass the checks of their settings. -/
structure ValidOptions (k : List (String × Value)) : Prop where
  distinct : (k.map Prod.fst).Nodup
  known : Known k
  valid : ∀ s v, k.lookup s.key = some v → ∃ w, validated s v = .ok w

/-- The second configuration has the settings that have new values from those, in checked form, and
all others from the first. -/
def Takes (c : Config) (new : Setting → Option Value) (d : Config) : Prop :=
  ∀ s, match new s with
    | some v => validated s v = .ok (d.value s) ∧ d.isDefault s = false
    | none => d.value s = c.value s ∧ d.isDefault s = c.isDefault s

/-- The value that options have for a setting. -/
def option? (k : List (String × Value)) (s : Setting) : Option Value := k.lookup s.key

variable {c d e : Config} {s : Setting} {new new' : Setting → Option Value}
variable {k k₁ k₂ : List (String × Value)}

/-! ### Configurations made from fields -/

theorem Made.explicit_eq (hc : Made c) :
    c.explicit = Setting.all.filter fun s => !c.isDefault s := by
  obtain ⟨fields, hfields⟩ := hc
  obtain ⟨-, -, hexplicit⟩ := ofFields_eq_ok_iff.1 hfields
  rw [hexplicit]
  refine List.filter_congr fun s _ => ?_
  rw [isDefault_of_ofFields hfields]
  exact (Option.not_isNone _).symm

/-- Configurations made from fields are the same when each setting has the same value and is a
default in both or in neither. -/
theorem Made.ext (hc : Made c) (hd : Made d)
    (h : ∀ s, c.value s = d.value s ∧ c.isDefault s = d.isDefault s) : c = d := by
  refine value_ext (fun s => (h s).1) ?_
  rw [hc.explicit_eq, hd.explicit_eq]
  exact List.filter_congr fun s _ => congrArg _ (h s).2

theorem Made.value_of_isDefault (hc : Made c) (hs : c.isDefault s = true) :
    c.value s = ({} : Config).value s := by
  obtain ⟨fields, hfields⟩ := hc
  have hnone : fields.lookup s.key = none := by
    rwa [isDefault_of_ofFields hfields, Option.isNone_iff_eq_none] at hs
  have hsettled := (ofFields_eq_ok_iff.1 hfields).1 s
  unfold settled at hsettled
  rw [hnone] at hsettled
  exact (Except.ok.inj hsettled).symm

/-- The value of a setting that was given passes its check and is left as it is, but for an empty
layout. -/
theorem Made.validated_value (hc : Made c) (hs : c.isDefault s = false) :
    validated s (c.value s) = .ok (c.tidied.value s) := by
  obtain ⟨fields, hfields⟩ := hc
  rw [isDefault_of_ofFields hfields, Option.isNone_eq_false_iff, Option.isSome_iff_exists] at hs
  obtain ⟨w, hw⟩ := hs
  rw [validated_of_settled hw ((ofFields_eq_ok_iff.1 hfields).1 s), rechecked_value]

/-- No default is an empty layout. -/
theorem Made.tidied_value_of_isDefault (hc : Made c) (hs : c.isDefault s = true) :
    c.tidied.value s = ({} : Config).value s := by
  rw [← rechecked_value, hc.value_of_isDefault hs, rechecked_value]
  cases s <;> rfl

theorem tidied_value_eq_iff (c : Config) (s : Setting) :
    c.tidied.value s = c.value s ↔ ¬(s = .defaultLayout ∧ c.defaultLayout = some "") := by
  rw [← rechecked_value, rechecked_eq_iff]
  refine not_congr (and_congr_right ?_)
  rintro rfl
  exact (layoutValue_injective.eq_iff (a := c.defaultLayout) (b := some "") :)

/-! ### Fields with options on top -/

/-- **What a setting is settled to**: an option for it is checked, and without one it keeps its
value, or none for an empty layout. -/
theorem settled_overlay (hc : Made c) (hk : (k.map Prod.fst).Nodup) (s : Setting) :
    settled (Value.overlay c.fields k) s =
      match k.lookup s.key with
      | some v => validated s v
      | none => .ok (c.tidied.value s) := by
  unfold settled
  rw [lookup_overlay hk, lookup_fields]
  cases k.lookup s.key with
  | some v => rfl
  | none =>
    cases hs : c.isDefault s with
    | true => exact congrArg _ (hc.tidied_value_of_isDefault hs).symm
    | false => exact hc.validated_value hs

theorem overlaid_eq_ok_iff :
    c.overlaid k = .ok d ↔ ofFields (Value.overlay c.fields k) = .ok d := by
  unfold overlaid build
  cases ofFields (Value.overlay c.fields k) <;> simp

/-- **Valid options can be laid on top of any configuration.** -/
theorem exists_overlaid (hc : Made c) (hk : ValidOptions k) : ∃ d, c.overlaid k = .ok d := by
  simp only [overlaid_eq_ok_iff]
  refine ofFields_succeeds_iff.2 ⟨known_overlay.2 ⟨known_fields c, hk.known⟩, fun s => ?_⟩
  rw [settled_overlay hc hk.distinct]
  cases hv : k.lookup s.key with
  | none => exact ⟨_, rfl⟩
  | some v => exact hk.valid s v hv

theorem made_of_overlaid (h : c.overlaid k = .ok d) : Made d := ⟨_, overlaid_eq_ok_iff.1 h⟩

/-- **Options change what they name** and leave the rest, but for an empty layout. -/
theorem takes_of_overlaid (hc : Made c) (hk : (k.map Prod.fst).Nodup)
    (h : c.overlaid k = .ok d) : Takes c.tidied (option? k) d := by
  intro s
  have hfields := overlaid_eq_ok_iff.1 h
  have hsettled := (ofFields_eq_ok_iff.1 hfields).1 s
  have hdefault := isDefault_of_ofFields hfields s
  rw [settled_overlay hc hk] at hsettled
  rw [lookup_overlay hk, lookup_fields] at hdefault
  unfold option?
  cases hv : k.lookup s.key with
  | some v =>
    rw [hv] at hsettled hdefault
    exact ⟨hsettled, hdefault⟩
  | none =>
    rw [hv] at hsettled hdefault
    refine ⟨(Except.ok.inj hsettled).symm, hdefault.trans ?_⟩
    change _ = c.isDefault s
    cases c.isDefault s <;> rfl

/-! ### Options on top of options -/

theorem Takes.refl (c : Config) : Takes c (option? []) c := fun _ => ⟨rfl, rfl⟩

/-- What takes the same values on top of the same configuration is the same. -/
theorem Takes.unique (hd : Made d) (he : Made e) (h : Takes c new d) (h' : Takes c new e) :
    d = e := by
  refine hd.ext he fun s => ?_
  have hsd := h s
  have hse := h' s
  cases hv : new s with
  | some v =>
    rw [hv] at hsd hse
    exact ⟨Except.ok.inj (hsd.1.symm.trans hse.1), hsd.2.trans hse.2.symm⟩
  | none =>
    rw [hv] at hsd hse
    exact ⟨hsd.1.trans hse.1.symm, hsd.2.trans hse.2.symm⟩

/-- What takes later values on top of earlier ones takes them on top of what took those. -/
theorem Takes.cancel (hd : Takes c new d) (he : Takes c (fun s => (new' s).or (new s)) e) :
    Takes d new' e := by
  intro s
  have hsd := hd s
  have hse := he s
  dsimp only at hse
  cases hv' : new' s with
  | some v =>
    rw [hv'] at hse
    exact hse
  | none =>
    rw [hv', Option.none_or] at hse
    cases hv : new s with
    | some v =>
      rw [hv] at hsd hse
      exact ⟨Except.ok.inj (hse.1.symm.trans hsd.1), hse.2.trans hsd.2.symm⟩
    | none =>
      rw [hv] at hsd hse
      exact ⟨hse.1.trans hsd.1.symm, hse.2.trans hsd.2.symm⟩

theorem option?_overlay (hk : (k₂.map Prod.fst).Nodup) :
    option? (Value.overlay k₁ k₂) = fun s => (option? k₂ s).or (option? k₁ s) :=
  funext fun s => lookup_overlay hk k₁ s.key

theorem validOptions_nil : ValidOptions [] := ⟨List.nodup_nil, nofun, nofun⟩

theorem ValidOptions.overlay (h₁ : ValidOptions k₁) (h₂ : ValidOptions k₂) :
    ValidOptions (Value.overlay k₁ k₂) where
  distinct := nodup_names_overlay h₁.distinct k₂
  known := known_overlay.2 ⟨h₁.known, h₂.known⟩
  valid s v hv := by
    rw [lookup_overlay h₂.distinct] at hv
    rcases Option.or_eq_some_iff.1 hv with hv | ⟨-, hv⟩
    · exact h₂.valid s v hv
    · exact h₁.valid s v hv

/-- Options that describe a configuration by themselves are valid. -/
theorem validOptions_of_ofFields (hk : (k.map Prod.fst).Nodup) (h : ofFields k = .ok c) :
    ValidOptions k := by
  obtain ⟨hsettled, hknown, -⟩ := ofFields_eq_ok_iff.1 h
  refine ⟨hk, hknown, fun s v hv => ⟨c.value s, ?_⟩⟩
  have hs := hsettled s
  unfold settled at hs
  rwa [hv] at hs

/-- Values on top of a configuration without its empty layout are values on top of it as it is,
exactly if it has none or the values have a layout. -/
theorem Takes.of_tidied_iff (h : Takes c.tidied new d) :
    Takes c new d ↔ (c.defaultLayout = some "" → new .defaultLayout ≠ none) := by
  constructor
  · intro h' hempty hnone
    have hlayout := h .defaultLayout
    have hlayout' := h' .defaultLayout
    rw [hnone] at hlayout hlayout'
    exact (tidied_value_eq_iff c .defaultLayout).1 (hlayout.1.symm.trans hlayout'.1) ⟨rfl, hempty⟩
  · intro hnew s
    have hs := h s
    cases hv : new s with
    | some v =>
      rw [hv] at hs
      exact hs
    | none =>
      rw [hv] at hs
      refine ⟨hs.1.trans ((tidied_value_eq_iff c s).2 ?_), hs.2⟩
      rintro ⟨rfl, hempty⟩
      exact hnew hempty hv

/-- What takes the values of options on top of a configuration is what they make of it, exactly if it
has no empty layout or they have a layout. -/
theorem overlaid_eq_iff (hc : Made c) (hk : ValidOptions k) (he : Made e)
    (h : Takes c (option? k) e) :
    c.overlaid k = .ok e ↔ (c.defaultLayout = some "" → option? k .defaultLayout ≠ none) := by
  obtain ⟨b, hb⟩ := exists_overlaid hc hk
  have htakes := takes_of_overlaid hc hk.distinct hb
  rw [← htakes.of_tidied_iff]
  constructor
  · intro hke
    obtain rfl : b = e := Except.ok.inj (hb.symm.trans hke)
    exact h
  · intro htakes'
    rw [hb, Takes.unique (made_of_overlaid hb) he htakes' h]

/-- **Configurations drift only with an empty layout.** Checks leave what they have made as it is,
exactly if that is no empty layout, and without options a configuration comes back as it was, given
settings included, exactly if it has none. With valid options it takes what they name from them and
the rest from itself, but for an empty layout, which becomes none; and with further ones on top of
that, it becomes what both make of it at once, exactly if it had no empty layout in between or those
name one. -/
theorem drifts_only_with_empty_layout (hc : Made c) (h₁ : ValidOptions k₁)
    (h₂ : ValidOptions k₂) :
    (∀ s v w, validated s v = .ok w →
      (validated s w = .ok w ↔ ¬(s = .defaultLayout ∧ w = .str ""))) ∧
    (c.overlaid [] = .ok c ↔ c.defaultLayout ≠ some "") ∧
    ∃ d, c.overlaid k₁ = .ok d ∧ Takes c.tidied (option? k₁) d ∧
      (Takes c (option? k₁) d ↔
        (c.defaultLayout = some "" → option? k₁ .defaultLayout ≠ none)) ∧
      ∃ e, d.overlaid k₂ = .ok e ∧
        (c.overlaid (Value.overlay k₁ k₂) = .ok e ↔
          (d.defaultLayout = some "" → option? k₂ .defaultLayout ≠ none)) := by
  have hsame : c.overlaid [] = .ok c ↔ c.defaultLayout ≠ some "" := by
    rw [overlaid_eq_iff hc validOptions_nil hc (.refl c)]
    exact imp_congr_right fun _ => iff_of_false (not_not.2 rfl) id
  obtain ⟨d, hd⟩ := exists_overlaid hc h₁
  have hmade := made_of_overlaid hd
  have htakes := takes_of_overlaid hc h₁.distinct hd
  obtain ⟨e, he⟩ := exists_overlaid hmade h₂
  obtain ⟨e', he'⟩ := exists_overlaid hc (h₁.overlay h₂)
  have hboth : Takes d (option? k₂) e' := by
    have h := takes_of_overlaid hc (h₁.overlay h₂).distinct he'
    rw [option?_overlay h₂.distinct] at h
    exact htakes.cancel h
  refine ⟨fun s v w => validated_again_iff, hsame, d, hd, htakes, htakes.of_tidied_iff, e, he, ?_⟩
  rw [← overlaid_eq_iff hmade h₂ (made_of_overlaid he') hboth, he, he']
  exact ⟨fun h => congrArg _ (Except.ok.inj h).symm, fun h => congrArg _ (Except.ok.inj h).symm⟩

/-- An extension on top of another one: the first gets its dot, and the second is left. No layout
stays as given as any other. -/
theorem drifts_only_with_empty_layout_extname :
    let c : Config := { layoutsDir := "l", explicit := [.layoutsDir] }
    let k₁ : List (String × Value) := [("extname", .str "tpl"), ("default_layout", .bool false)]
    let k₂ : List (String × Value) := [("extname", .str ".txt")]
    Made c ∧ ValidOptions k₁ ∧ ValidOptions k₂ ∧
      ∃ d e, c.overlaid k₁ = .ok d ∧ d.extname = ".tpl" ∧ d.isDefault .defaultLayout = false ∧
        d.overlaid k₂ = .ok e ∧ e.extname = ".txt" ∧ e.layoutsDir = "l" ∧
        c.overlaid [("extname", .str ".txt"), ("default_layout", .bool false)] = .ok e := by
  intro c k₁ k₂
  have hc : Made c := ⟨[("layouts_dir", .str "l")], rfl⟩
  have h₁ : ValidOptions k₁ := validOptions_of_ofFields (by decide)
    (rfl : ofFields k₁ = .ok { extname := ".tpl", explicit := [.extname, .defaultLayout] })
  have h₂ : ValidOptions k₂ := validOptions_of_ofFields (by decide)
    (rfl : ofFields k₂ = .ok { extname := ".txt", explicit := [.extname] })
  obtain ⟨-, -, d, hd, htakes, -, e, he, hboth⟩ := drifts_only_with_empty_layout hc h₁ h₂
  have hextname : d.extname = ".tpl" := (Value.str.inj (Except.ok.inj (htakes .extname).1)).symm
  have hlayout : d.defaultLayout = none :=
    (layoutValue_injective (Except.ok.inj (htakes .defaultLayout).1 :
      layoutValue none = layoutValue d.defaultLayout)).symm
  have hwhole := hboth.2 fun hempty => nomatch hlayout.symm.trans hempty
  have hloaded : (c.overlaid (Value.overlay k₁ k₂)).map (fun e => (e.extname, e.layoutsDir)) =
      .ok (".txt", "l") := rfl
  rw [hwhole] at hloaded
  obtain ⟨htxt, hdir⟩ := Prod.mk.inj (Except.ok.inj hloaded)
  exact ⟨hc, h₁, h₂, d, e, hd, hextname, (htakes .defaultLayout).2, he, htxt, hdir, hwhole⟩

/-- A configuration with empty octets for its layout has an empty layout, and drifts: once more
checked, it has none. -/
theorem empty_octets_drift : ∃ c : Config, ofFields [("default_layout", .bytes [])] = .ok c ∧
    c.defaultLayout = some "" ∧ ∃ d, c.overlaid [] = .ok d ∧ d.defaultLayout = none ∧ d ≠ c :=
  ⟨{ defaultLayout := some "", explicit := [.defaultLayout] }, rfl, rfl,
    { explicit := [.defaultLayout] }, rfl, rfl,
    fun h => nomatch (congrArg Config.defaultLayout h : (none : Option String) = some "")⟩

end Config

end CachedViews
