import CachedViews.Proofs.Template.Scoping

/-
# How far helpers and partials reach

The helpers and partials of a render are in the record about the render, which is a variable of the
model like any other and is handed on with it from partial to partial. So the further variables of
the calls may cover it: the record that a template finds is that of the innermost call that gives a
variable of its name, or else that of the render (`Nested.metaFields_eq`). A template in the calls
has the helpers and partials of the render at hand if it finds the record of the render, or another
that brings the same (`Brings.atHand`, `Nested.brings_iff`). Below a call that gives a variable of
that name with anything else as its value, nothing is at hand (`nothing_at_hand`).

Key definitions: `Brings`, `Env.AtHand`.
Key theorems: `Brings.atHand`, `nothing_at_hand`, `Nested.brings_iff`, `at_hand_in_nested_partials`.
-/

namespace CachedViews.Template

/-! ### What a model brings -/

/-- A model brings the helpers and partials that another one brings. -/
structure Brings (m m₀ : Variables) : Prop where
  helper : ∀ x v, (helpersOf m₀).lookup x = some v → (helpersOf m).lookup x = some v
  partials : ∀ name v,
    partialOf (partialsOf m₀) name = .ok v → partialOf (partialsOf m) name = .ok v

theorem Brings.refl (m : Variables) : Brings m m := ⟨fun _ _ h => h, fun _ _ h => h⟩

/-- What a model brings is in the record about the render. -/
theorem brings_congr {m m' m₀ : Variables} (h : metaFields m = metaFields m') :
    Brings m m₀ ↔ Brings m' m₀ := by
  constructor
  · rintro ⟨hh, hp⟩
    exact ⟨helpersOf_congr h ▸ hh, partialsOf_congr h ▸ hp⟩
  · rintro ⟨hh, hp⟩
    exact ⟨helpersOf_congr h ▸ hh, partialsOf_congr h ▸ hp⟩

/-! ### What is at hand -/

/-- Nothing that a template names covers the name: it is no variable, of the template or the model,
and none of the names that every template has for itself. -/
structure Env.Bare (env : Env) (x : String) : Prop where
  unset : lookupScopes x env.scopes = none
  notGiven : env.model.lookup x = none
  notOwn : x ∉ ["self", "partial", "partials"]

theorem Env.Bare.lookup_eq {env : Env} {x : String} (h : env.Bare x) :
    env.lookup x =
      ((env.helpers.lookup x).or
        (if builtinNames.contains x then some (.builtin x) else none)).getD
          (.missing (.name x)) := by
  obtain ⟨hself, hpartial, hpartials⟩ : x ≠ "self" ∧ x ≠ "partial" ∧ x ≠ "partials" := by
    simpa using h.notOwn
  rw [Env.lookup, Env.given?, if_neg hself, if_neg hpartial, if_neg hpartials, h.unset, h.notGiven,
    Option.none_or, Option.none_or]

/-- The helpers and partials that a model brings can be used: the name of a helper denotes it, and
the function `partial` calls the partials, with the variables of the template and further ones. -/
structure Env.AtHand (env : Env) (m₀ : Variables) : Prop where
  helper : ∀ call x v, (helpersOf m₀).lookup x = some v → env.Bare x →
    eval call env (.name x) = .ok v
  partials : ∀ call rt enter name v named, partialOf (partialsOf m₀) name = .ok v →
    lookupScopes "partial" env.scopes = none → env.model.lookup "partial" = none →
    named.lookup "name" = none →
    ∃ f, eval call env (.name "partial") = .ok f ∧
      callValue rt enter f [name] named =
        callPlain rt enter v [Value.ofFields (Value.overlay env.model named)] []

theorem Brings.atHand {m m₀ : Variables} (h : Brings m m₀) {env : Env} (henv : env.Inside m) :
    env.AtHand m₀ where
  helper := by
    intro call x v hv hbare
    have hhelper : env.helpers.lookup x = some v := henv.helpers ▸ h.helper x v hv
    rw [eval, hbare.lookup_eq, hhelper]
    rfl
  partials := by
    intro call rt enter name v named hv hunset hgiven hname
    have hdenotes : env.lookup "partial" = .caller env.partials env.model := by
      rw [Env.lookup, Env.given?, if_neg (by decide), if_pos rfl, hunset, hgiven]
      rfl
    have hfound : partialOf env.partials name = .ok v := henv.partials ▸ h.partials name v hv
    refine ⟨.caller env.partials env.model, by rw [eval, hdenotes], ?_⟩
    rw [callValue_caller rt enter (partialArguments_name name hname), hfound]
    rfl

/-- A model without a record about the render brings nothing: what is called is not found. -/
theorem nothing_at_hand {m : Variables} (h : metaFields m = []) {env : Env} (henv : env.Inside m) :
    (∀ x, env.Bare x →
      env.lookup x = if builtinNames.contains x then .builtin x else .missing (.name x)) ∧
    ∀ (rt : Runtime) (enter : Pages) (name : Value) (named : Variables), name.isHashable →
      named.lookup "name" = none →
      callValue rt enter (.caller env.partials env.model) [name] named =
        .error (.partialNotFound name.text) := by
  have hempty : metaFields m = metaFields [] := h
  have hhelpers : env.helpers = [] := henv.helpers.trans (helpersOf_congr hempty)
  have hpartials : env.partials = .dict [] := henv.partials.trans (partialsOf_congr hempty)
  constructor
  · intro x hbare
    rw [hbare.lookup_eq, hhelpers]
    split
    · rfl
    · rfl
  · intro rt enter name named hhash hname
    have hfound : partialOf env.partials name = .error (.partialNotFound name.text) := by
      rw [hpartials, partialOf, hhash]
      simp [ownItem?, hhash]
    rw [callValue_caller rt enter (partialArguments_name name hname), hfound]
    rfl

/-! ### Inside calls -/

section Nested

variable {m₀ m : Variables} {extras : List Variables} {q : Page}

/-- What a template brings that is called depends on the innermost call that gives another record
about the render, if there is one. -/
theorem Nested.brings_iff (h : Nested m₀ extras q m) :
    Brings m m₀ ↔
      ∀ v, extras.findSome? (·.lookup "view") = some v → Brings [("view", v)] m₀ := by
  have hmeta := h.metaFields_eq
  cases hgiven : extras.findSome? (·.lookup "view") with
  | none =>
    rw [hgiven] at hmeta
    have hbrings : Brings m m₀ := (brings_congr hmeta).2 (.refl m₀)
    refine ⟨fun _ v hv => ?_, fun _ => hbrings⟩
    cases hv
  | some v =>
    rw [hgiven] at hmeta
    rw [brings_congr hmeta]
    exact ⟨fun hv w hw => Option.some.inj hw ▸ hv, fun hv => hv v rfl⟩

/-- **Helpers and partials in nested partials.** The view has the helpers and partials of the
render at hand. So has a template in calls inside each other that brings them; and it does exactly
if the innermost call that gives a variable `view`, if there is one, gives a record that does. If
that call gives anything but such a record, helpers are not found and every call of a partial
fails. -/
theorem at_hand_in_nested_partials (h : Nested m₀ extras q m) :
    (∀ env : Env, env.Inside m₀ → env.AtHand m₀) ∧
    (Brings m m₀ → ∀ env : Env, env.Inside m → env.AtHand m₀) ∧
    (Brings m m₀ ↔
      ∀ v, extras.findSome? (·.lookup "view") = some v → Brings [("view", v)] m₀) ∧
    ∀ v, extras.findSome? (·.lookup "view") = some v → metaFields [("view", v)] = [] →
      ∀ env : Env, env.Inside m →
        (∀ x, env.Bare x →
          env.lookup x = if builtinNames.contains x then .builtin x else .missing (.name x)) ∧
        ∀ (rt : Runtime) (enter : Pages) (name : Value) (named : Variables), name.isHashable →
          named.lookup "name" = none →
          callValue rt enter (.caller env.partials env.model) [name] named =
            .error (.partialNotFound name.text) := by
  refine ⟨fun env henv => (Brings.refl m₀).atHand henv, fun hm env henv => hm.atHand henv,
    h.brings_iff, fun v hv hnone env henv => ?_⟩
  have hmeta : metaFields m = [] := by
    rw [h.metaFields_eq, hv]
    exact hnone
  exact nothing_at_hand hmeta henv

end Nested

/-- Two calls inside each other that give no variable `view` have a helper and a partial of the
render at hand. -/
theorem at_hand_in_nested_partials_small :
    let env := pageEnv true (innermost smallModel smallExtras)
    let call := callValue default (renderPage default 1)
    Nested smallModel smallExtras innerPage (innermost smallModel smallExtras) ∧
      eval call env (.name "h") = .ok (.function "upper" .null) ∧
      ∃ f, eval call env (.name "partial") = .ok f ∧
        callValue default (renderPage default 1) f [.str "inner"] [("x", .str "third")] =
          callPlain default (renderPage default 1) (.page 0 innerPage)
            [Value.ofFields (Value.overlay (innermost smallModel smallExtras)
              [("x", .str "third")])] [] := by
  intro env call
  obtain ⟨-, hathand, hiff, -⟩ := at_hand_in_nested_partials nested_smallExtras
  have hbrings : Brings (innermost smallModel smallExtras) smallModel :=
    hiff.2 fun v hv => nomatch hv
  have hhand : env.AtHand smallModel := hathand hbrings env (inside_pageEnv true _)
  have hinner : partialOf (partialsOf smallModel) (.str "inner") = .ok (.page 0 innerPage) :=
    partialOf_ofFields (c := .plain "inner")
      (show smallPartials.lookup "inner" = some (.page 0 innerPage) from rfl)
  exact ⟨nested_smallExtras, hhand.helper call "h" _ rfl ⟨rfl, rfl, by decide⟩,
    hhand.partials call default (renderPage default 1) _ _ _ hinner rfl rfl rfl⟩

/-- A call that gives a variable `view` loses what the render brings: in the partial that it opens
a helper is not found, and no partial. -/
theorem lost_below_view :
    let extras : List Variables := [[("view", .int 1)]]
    let env := pageEnv true (innermost smallModel extras)
    let call := callValue default (renderPage default 1)
    Nested smallModel extras outerPage (innermost smallModel extras) ∧
      (eval call (pageEnv true smallModel) (.name "h") = .ok (.function "upper" .null) ∧
        eval call (pageEnv true smallModel) (calling "inner" []) = .ok (.markup "model")) ∧
      env.Bare "h" ∧ eval call env (.name "h") = .ok (.missing (.name "h")) ∧
      env.model.lookup "partial" = none ∧
      eval call env (calling "inner" []) = .error (.partialNotFound "inner") := by
  intro extras env call
  have hopened : Nested smallModel extras outerPage (innermost smallModel extras) :=
    nested_small (.start default) (fun _ h => nomatch h)
      (show smallPartials.lookup "outer" = some (.page 0 outerPage) from rfl) (by decide) rfl
  have hview : eval (callValue default (renderPage default 1)) (pageEnv true smallModel)
      (calling "inner" []) =
      .ok (.markup "model") := by
    with_unfolding_all rfl
  have hlost : eval (callValue default (renderPage default 1))
      (pageEnv true (innermost smallModel [[("view", .int 1)]])) (calling "inner" []) =
        .error (.partialNotFound "inner") := by
    with_unfolding_all rfl
  exact ⟨hopened, ⟨rfl, hview⟩, ⟨rfl, rfl, by decide⟩, rfl, rfl, hlost⟩

end CachedViews.Template
