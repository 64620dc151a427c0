import CachedViews.Proofs.Engine.Composition
import CachedViews.Proofs.Path.Below
import CachedViews.Layout

/-
# The name of a view leads to its file and back

The file of a view is found from its name: an extension is put behind a name that has none of
its own, and the directory of views in front of it. A render goes the other way, from the file to
the name that templates are told, and to the directory below which the file lies. Both ways
together lead back to where they started.

Resolved, the file has the components of the directory and then the pieces of the name
(`Components.parts_join`), so the way from the directory to it is the name again
(`Components.relative_join`). What was put behind it is taken off (`partialName_withExtension`).

Key definitions: `IsViewName`.
Key theorems: `Components.relative_join`, `partialName_withExtension`,
`Engine.view_named_as_asked`.
-/

namespace CachedViews

open CachedViews.Text

/-- A name that leads to a view below the directory: none of its pieces is empty, one dot or two
dots, so it does not begin or end with a slash. -/
def IsViewName (name : String) : Prop :=
  ∀ c ∈ splitOn '/' name.toList, c ≠ [] ∧ c ≠ ['.'] ∧ c ≠ ['.', '.']

instance (name : String) : Decidable (IsViewName name) :=
  inferInstanceAs (Decidable (∀ c ∈ splitOn '/' name.toList, c ≠ [] ∧ c ≠ ['.'] ∧ c ≠ ['.', '.']))

namespace Components

variable {a b cwd dir name : List Char}

/-! ### Plain names behind a directory -/

/-- A plain component is plain also with something behind it. -/
theorem isPlain_append (ha : isPlain a = true) (hb : '/' ∉ b) : isPlain (a ++ b) = true := by
  have hne : a ≠ [] := by
    rintro rfl
    simp [isPlain] at ha
  cases b with
  | nil => rwa [List.append_nil]
  | cons d b =>
    -- with something behind it, only a single dot could become two
    have hone : a ++ d :: b ≠ ['.'] := by
      cases a with
      | nil => exact absurd rfl hne
      | cons c a => simp
    have htwo : a ++ d :: b ≠ ['.', '.'] := by
      intro he
      rcases a with _ | ⟨c, _ | ⟨c', a⟩⟩
      · exact hne rfl
      · obtain rfl : c = '.' := (List.cons.inj he).1
        simp [isPlain] at ha
      · simp at he
    have hslash : '/' ∉ a ++ d :: b := by
      have : '/' ∉ a := by
        simp only [isPlain] at ha
        simp_all
      simp_all
    simp [isPlain, hone, htwo, hslash]

/-- What is put behind a name of plain pieces leaves them plain. -/
theorem plain_append (ha : ∀ x ∈ splitOn '/' a, isPlain x = true) (hb : '/' ∉ b) :
    ∀ x ∈ splitOn '/' (a ++ b), isPlain x = true := by
  obtain ⟨ws, w, hw, hwb⟩ := splitOn_append_of_not_mem hb a
  rw [hw] at ha
  rw [hwb]
  intro x hx
  rcases List.mem_append.1 hx with hx | hx
  · exact ha x (List.mem_append_left _ hx)
  · obtain rfl := List.mem_singleton.1 hx
    exact isPlain_append (ha w (by simp)) hb

theorem not_isAbsolute_of_plain (h : ∀ x ∈ splitOn '/' name, isPlain x = true) :
    isAbsolute name = false := by
  cases name with
  | nil => rfl
  | cons d r =>
    rw [isAbsolute_cons, decide_eq_false_iff_not]
    rintro rfl
    have hfirst := h [] (by simp [splitOn])
    simp [isPlain] at hfirst

/-- What is left of a plain name behind a directory: the components of the directory, then the
pieces of the name. -/
theorem parts_join (h : ∀ x ∈ splitOn '/' name, isPlain x = true) :
    parts (join cwd (join dir name)) = parts (join cwd dir) ++ splitOn '/' name := by
  rw [parts_eq, parts_eq, worked_join_join (not_isAbsolute_of_plain h), worked,
    foldl_push_of_plain _ _ h, List.reverse_append, List.reverse_reverse]

theorem dropCommon_append (ds cs : List (List Char)) : dropCommon ds (ds ++ cs) = ([], cs) := by
  induction ds with
  | nil => cases cs <;> rfl
  | cons d ds ih => simpa [dropCommon] using ih

/-- The way from a directory to what lies below it under a plain name is the name. -/
theorem relative_join (hcwd : isAbsolute cwd = true)
    (h : ∀ x ∈ splitOn '/' name, isPlain x = true) :
    relative cwd dir (absolute cwd (join dir name)) = name := by
  have hsteps : (splitOn '/' (absolute cwd (absolute cwd (join dir name)))).filter (· ≠ []) =
      (splitOn '/' (absolute cwd dir)).filter (· ≠ []) ++ splitOn '/' name := by
    rw [absolute_absolute hcwd, filter_splitOn_absolute, filter_splitOn_absolute, parts_join h]
  unfold relative
  simp only [hsteps, dropCommon_append, List.length_nil, List.replicate_zero, List.nil_append]
  cases hn : splitOn '/' name with
  | nil => exact absurd hn (splitOn_ne_nil '/' name)
  | cons w ws =>
    rw [← joinWith_splitOn '/' name, hn]

end Components

/-! ### Extensions -/

theorem dropSuffix?_append (a b : List Char) : dropSuffix? b (a ++ b) = some a := by
  have hend : b.isSuffixOf (a ++ b) = true := List.isSuffixOf_iff_suffix.2 (List.suffix_append a b)
  simp [dropSuffix?, hend]

theorem dropSuffix?_of_not {a b : List Char} (h : ¬b <:+ a) : dropSuffix? b a = none := by
  have hend : ¬b.isSuffixOf a = true := fun he => h (List.isSuffixOf_iff_suffix.1 he)
  simp [dropSuffix?, hend]

/-- The extension that a name gets is taken off again. A name with an extension of its own keeps
it, unless that is the one taken off. -/
theorem partialName_withExtension {extname name : String}
    (hend : extname ≠ "" → ¬extname.toList <:+ name.toList) :
    partialName (withExtension extname name) none extname = name := by
  unfold partialName
  by_cases hext : extname = ""
  · simp [hext, withExtension]
  · rw [if_neg hext]
    by_cases hown : Path.extension name = ""
    · have hbehind : withExtension extname name = name ++ extname := if_pos hown
      simp [hbehind, dropSuffix?_append]
    · have hkept : withExtension extname name = name := if_neg hown
      simp [hkept, dropSuffix?_of_not (hend hext)]

/-- With an extension behind it, a name leads to a view as before. -/
theorem plain_withExtension {extname name : String} (hname : IsViewName name)
    (hext : '/' ∉ extname.toList) :
    ∀ x ∈ splitOn '/' (withExtension extname name).toList, Components.isPlain x = true := by
  have hplain : ∀ x ∈ splitOn '/' name.toList, Components.isPlain x = true := fun x hx => by
    have hslash := not_mem_of_mem_splitOn '/' _ x hx
    obtain ⟨h0, h1, h2⟩ := hname x hx
    simp [Components.isPlain, h0, h1, h2, hslash]
  unfold withExtension
  split
  · rw [String.toList_append]
    exact Components.plain_append hplain hext
  · exact hplain

namespace Engine

variable {e : Engine} {views name : String}

/-! ### From the file to the name -/

/-- The name that a render derives from the file of a view. -/
theorem viewName_viewPath (views : String) (hcwd : Path.isAbsolute e.cwd = true)
    (hext : '/' ∉ e.config.extname.toList) (hname : IsViewName name)
    (hend : e.config.extname ≠ "" → ¬e.config.extname.toList <:+ name.toList) :
    e.viewName (.str (viewPath e.cwd e.config.extname views name)) views = .ok name := by
  have hfile : (Value.str (viewPath e.cwd e.config.extname views name)).isTrue = true := by
    have habs := Path.isAbsolute_absolute hcwd
      (Path.join views (withExtension e.config.extname name))
    have hne : viewPath e.cwd e.config.extname views name ≠ "" := fun hnil => by
      rw [show Path.absolute e.cwd (Path.join views (withExtension e.config.extname name)) = ""
        from hnil] at habs
      exact absurd habs (by decide)
    simpa [Value.isTrue] using hne
  have hway : Path.relative e.cwd views (viewPath e.cwd e.config.extname views name) =
      withExtension e.config.extname name := by
    unfold Path.relative viewPath Path.absolute Path.join
    rw [String.toList_ofList, String.toList_ofList,
      Components.relative_join hcwd (plain_withExtension hname hext), String.ofList_toList]
  have hpath : (Value.str (viewPath e.cwd e.config.extname views name)).asPath =
      .ok (viewPath e.cwd e.config.extname views name) := rfl
  unfold viewName
  rw [if_pos hfile, hpath]
  simp only [bind, Except.bind]
  rw [hway, partialName_withExtension hend]
  rfl

theorem view_of_build {cached layout helpers partials sources : Value} {view : Option String}
    {o : RenderOptions}
    (h : RenderOptions.build [("cache", cached), ("view", RenderMeta.optionalText view),
      ("layout", layout), ("helpers", helpers), ("partials", partials),
      ("partials_dir", sources)] = .ok o) : o.view = view := by
  unfold RenderOptions.build RenderOptions.ofFields at h
  simp only [lookup_field] at h
  simp only [String.reduceEq, if_true, if_false, Option.getD_some,
    checkOptionalText_optionalText] at h
  split at h
  · next ho =>
    split at ho
    · next hview _ _ _ =>
      obtain rfl := Except.ok.inj ho
      obtain rfl := Except.ok.inj h
      exact (Except.ok.inj hview).symm
    · cases ho
  · cases h

/-- What templates are told is the name that was derived. -/
theorem view_of_planView {file options : Value} {entries : List (Value × Value)}
    {plan : ViewPlan} (hentries : Template.entriesOf options = .ok entries)
    (hv : viewsPath? entries = some views)
    (hn : e.viewName file views = .ok name) (hp : e.planView file options = .ok plan) :
    plan.options.view = some name := by
  unfold planView at hp
  rw [hentries] at hp
  simp only [bind, Except.bind, hv, hn, Except.map] at hp
  split at hp
  · cases hp
  · split at hp
    · cases hp
    · next hbuild =>
      obtain rfl := Except.ok.inj hp
      exact view_of_build hbuild

/-- **A view is named as it was asked for.** From the file that a name leads to below a directory of
views, a render whose settings give that directory derives the name again, and this is the name
that its templates are told. The name may have dots anywhere and an extension of its own, and the
directory may be relative and climb; only a name that ends with the engine's extension comes back
without it. -/
theorem view_named_as_asked (views : String) (hcwd : Path.isAbsolute e.cwd = true)
    (hext : '/' ∉ e.config.extname.toList) (hname : IsViewName name)
    (hend : e.config.extname ≠ "" → ¬e.config.extname.toList <:+ name.toList) :
    e.viewName (.str (viewPath e.cwd e.config.extname views name)) views = .ok name ∧
      ∀ options entries plan, Template.entriesOf options = .ok entries →
        viewsPath? entries = some views →
        e.planView (.str (viewPath e.cwd e.config.extname views name)) options = .ok plan →
        plan.options.view = some name := by
  have hderived := viewName_viewPath views hcwd hext hname hend
  exact ⟨hderived, fun options entries plan hentries hv hp =>
    view_of_planView hentries hv hderived hp⟩

/-- An engine whose extension is a bare dot. -/
def dotEngine : Engine := { config := { extname := "." }, cwd := "/srv", runtime := default }

/-- Views that are reached by a detour. -/
def detourOptions : Value :=
  .dict [(.str "settings", .dict [(.str "views", .str "a/../odd//views")])]

/-- A hidden file in a directory with a dot. -/
def hiddenFile : Value := .str (viewPath "/srv" "." "a/../odd//views" "v1.2/.hidden")

/-- The dot that was put behind the name is taken off, and no other. -/
theorem view_named_as_asked_hidden :
    hiddenFile.text = "/srv/odd/views/v1.2/.hidden." ∧ Path.isAbsolute dotEngine.cwd = true ∧
      '/' ∉ dotEngine.config.extname.toList ∧ IsViewName "v1.2/.hidden" ∧
      ¬dotEngine.config.extname.toList <:+ "v1.2/.hidden".toList ∧
      dotEngine.viewName hiddenFile "a/../odd//views" = .ok "v1.2/.hidden" ∧
      ∃ plan, dotEngine.planView hiddenFile detourOptions = .ok plan ∧
        plan.options.view = some "v1.2/.hidden" := by
  have hcwd : Path.isAbsolute dotEngine.cwd = true := by decide
  have hext : '/' ∉ dotEngine.config.extname.toList := by decide
  have hname : IsViewName "v1.2/.hidden" := by decide +kernel
  have hend : ¬dotEngine.config.extname.toList <:+ "v1.2/.hidden".toList := by decide
  obtain ⟨hderived, htold⟩ :=
    view_named_as_asked "a/../odd//views" hcwd hext hname fun _ => hend
  have hsettled : (dotEngine.planView hiddenFile detourOptions).toOption.isSome = true := by
    decide +kernel
  refine ⟨by decide +kernel, hcwd, hext, hname, hend, hderived, ?_⟩
  cases hp : dotEngine.planView hiddenFile detourOptions with
  | ok plan => exact ⟨plan, rfl, htold _ _ plan rfl (by decide +kernel) hp⟩
  | error f =>
    rw [hp] at hsettled
    cases hsettled

end Engine

end CachedViews
