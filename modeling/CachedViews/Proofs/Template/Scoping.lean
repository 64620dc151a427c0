import CachedViews.Proofs.Template.Expansion
import CachedViews.Proofs.Template.Kept

/-
# What names denote in nested partials

The function `partial` of a template renders another template against the model of its own, with
further variables on top. Such calls may be inside each other (`Nested`), to any depth, and what
a name then denotes is found in layers (`layers`): the further variables of the calls, those of
the innermost first, the model of the render, the two names `partials` and `partial`, the helpers,
and the functions every template knows. The first layer that has the name decides
(`names_in_nested_partials`). The name `self` alone is no variable: it denotes the template.

What is called changes nothing for the caller, so behind a call names denote what they denoted
before it.

Not covered: the variables that a template sets for itself, which are in front of all layers and
are not handed on; and values that a called template, or a function that it calls, changes in place
although the caller holds them too. A change by a template ends the render as one that is not
followed (`Env.mayChange`), and what a function gives depends on its arguments alone (`Runtime`).

Key definitions: `Env.Inside`, `Opens`, `Nested`, `layers`, `denoted`.
Key theorems: `Opens.eq_overlay`, `Nested.lookup_eq`, `Nested.metaFields_eq`,
`names_in_nested_partials`.
-/

namespace CachedViews.Template

/-- Variables with their values. -/
abbrev Variables := List (String × Value)

/-! ### Points of a template -/

/-- The names at a point of a template that is rendered against the variables. The template may
have set some of its own. -/
structure Env.Inside (env : Env) (vars : Variables) : Prop where
  model : env.model = vars
  partials : env.partials = partialsOf vars
  helpers : env.helpers = helpersOf vars

theorem inside_pageEnv (escapes : Bool) (m : Variables) : (pageEnv escapes m).Inside m :=
  ⟨rfl, rfl, rfl⟩

theorem partialsOf_congr {m m' : Variables} (h : metaFields m = metaFields m') :
    partialsOf m = partialsOf m' := by
  unfold partialsOf
  rw [h]

theorem helpersOf_congr {m m' : Variables} (h : metaFields m = metaFields m') :
    helpersOf m = helpersOf m' := by
  unfold helpersOf
  rw [h]

section Inside

variable {env env' : Env} {m : Variables}

theorem Env.Inside.keeps (h : env.Inside m) (hk : env.Keeps [] env') : env'.Inside m where
  model := hk.model_eq.trans h.model
  partials := hk.partials.trans h.partials
  helpers := hk.helpers.trans h.helpers

/-- The layers behind all variables: the two names for partials, the helpers, and the functions
every template knows. -/
def ownLayers (partials : Value) (helpers m : Variables) : List Variables :=
  [[("partial", .caller partials m), ("partials", partials)], helpers,
    builtinNames.map fun n => (n, .builtin n)]

theorem Env.Inside.given?_eq (h : env.Inside m) {x : String} (hself : x ≠ "self") :
    env.given? x =
      (m :: ownLayers (partialsOf m) (helpersOf m) m).findSome? (·.lookup x) := by
  unfold Env.given?
  rw [if_neg hself, h.model, h.partials, h.helpers]
  simp only [ownLayers, List.findSome?_cons, List.findSome?_nil, lookup_map_self, lookup_field,
    List.lookup_nil, List.contains_eq_mem, decide_eq_true_eq]
  cases m.lookup x with
  | some v => rfl
  | none =>
    by_cases hpartial : x = "partial"
    · simp [hpartial]
    · by_cases hpartials : x = "partials"
      · simp [hpartials]
      · rw [if_neg hpartial, if_neg hpartials, if_neg hpartial, if_neg hpartials, Option.none_or]
        cases (helpersOf m).lookup x with
        | some v => rfl
        | none => split <;> rfl

end Inside

/-! ### Calls of partials -/

/-- Calling the value renders the page against the model, whatever rendering gives. -/
def Opens (f : Value) (args : List Value) (named : Variables) (p : Page) (model : Variables) :
    Prop :=
  ∀ (rt : Runtime) (enter : Pages), callValue rt enter f args named = enter p model

section Opens

variable {p q : Page} {m m' : Variables}

/-- What is rendered can be told from what rendering gives. -/
theorem eq_of_enter (h : ∀ enter : Pages, enter p m = enter q m') : p = q ∧ m = m' := by
  classical
  -- a rendering that fails for the first page against the first model, and for no other
  have hboth := h fun p' m'' => if p' = p ∧ m'' = m then .error .cancelled else .ok .null
  rw [if_pos ⟨rfl, rfl⟩] at hboth
  by_contra hne
  rw [if_neg fun he => hne ⟨he.1.symm, he.2.symm⟩] at hboth
  cases hboth

/-- What does not depend on rendering renders nothing. -/
theorem not_enter_of_const {r : Except Fault Value} : ¬∀ enter : Pages, r = enter q m' := by
  intro h
  have hnull := h fun _ _ => .ok .null
  have hfault := h fun _ _ => .error .cancelled
  cases hnull.symm.trans hfault

/-- A template that is called renders its page against the variables it is given. -/
theorem callPlain_page (rt : Runtime) (enter : Pages) (g : Nat) (p : Page) (m : Variables) :
    callPlain rt enter (.page g p) [Value.ofFields m] [] = enter p m := by
  change (modelOf (Value.ofFields m) [] >>= enter p) = _
  rw [modelOf_ofFields]
  rfl

/-- Only templates that are pages render anything. -/
theorem callPlain_eq_enter (rt : Runtime) {handle : Value} {m : Variables}
    (h : ∀ enter : Pages, callPlain rt enter handle [Value.ofFields m] [] = enter q m') :
    (∃ g, handle = .page g q) ∧ m' = m := by
  cases handle with
  | page g p =>
    simp only [callPlain_page] at h
    obtain ⟨rfl, rfl⟩ := eq_of_enter h
    exact ⟨⟨g, rfl⟩, rfl⟩
  | _ => exact absurd h not_enter_of_const

variable {partials : Value} {args : List Value} {named : Variables}

/-- A call with the name of a partial in its place. -/
theorem partialArguments_name (name : Value) (h : named.lookup "name" = none) :
    partialArguments [name] named = .ok (name, named) := by
  simp [partialArguments, h]

theorem callValue_caller {name : Value} {extra : Variables} (rt : Runtime) (enter : Pages)
    (hargs : partialArguments args named = .ok (name, extra)) :
    callValue rt enter (.caller partials m) args named =
      partialOf partials name >>= fun handle =>
        callPlain rt enter handle [Value.ofFields (Value.overlay m extra)] [] := by
  unfold callValue
  rw [hargs]
  rfl

/-- The function `partial` renders the page of the partial against the model of its template with
the further variables on top. -/
theorem opens_caller {name : Value} {extra : Variables} {g : Nat}
    (hargs : partialArguments args named = .ok (name, extra))
    (hhandle : partialOf partials name = .ok (.page g p)) :
    Opens (.caller partials m) args named p (Value.overlay m extra) := by
  intro rt enter
  rw [callValue_caller rt enter hargs, hhandle]
  exact callPlain_page rt enter g p (Value.overlay m extra)

/-- The function `partial` renders nothing else. -/
theorem Opens.eq_overlay (h : Opens (.caller partials m) args named q m') :
    ∃ name extra g, partialArguments args named = .ok (name, extra) ∧
      partialOf partials name = .ok (.page g q) ∧ m' = Value.overlay m extra := by
  have h := h default
  cases hargs : partialArguments args named with
  | error e =>
    unfold callValue at h
    rw [hargs] at h
    exact absurd h not_enter_of_const
  | ok asked =>
    obtain ⟨name, extra⟩ := asked
    simp only [callValue_caller default _ hargs] at h
    cases hhandle : partialOf partials name with
    | error e =>
      rw [hhandle] at h
      exact absurd h not_enter_of_const
    | ok handle =>
      rw [hhandle] at h
      obtain ⟨⟨g, rfl⟩, rfl⟩ := callPlain_eq_enter default h
      exact ⟨name, extra, g, rfl, hhandle, rfl⟩

end Opens

/-! ### Calls inside each other -/

/-- The page is rendered against the model, in calls of partials inside each other, the first one
from a template of a render with the model `m₀`. The further variables of the calls come with the
innermost call first. Each call is one of the function `partial` that belongs to the template of
the call around it. -/
inductive Nested (m₀ : Variables) : List Variables → Page → Variables → Prop
  | start (p : Page) : Nested m₀ [] p m₀
  | call {extras : List Variables} {p : Page} {m : Variables} {args : List Value}
      {named : Variables} {name : Value} {extra : Variables} {q : Page} {m' : Variables}
      (h : Nested m₀ extras p m) (hargs : partialArguments args named = .ok (name, extra))
      (hnames : (extra.map Prod.fst).Nodup)
      (hopens : Opens (.caller (partialsOf m) m) args named q m') :
      Nested m₀ (extra :: extras) q m'

/-- The model of the innermost of several calls. -/
def innermost (m₀ : Variables) (extras : List Variables) : Variables :=
  extras.foldr (fun extra m => Value.overlay m extra) m₀

/-- The layers in which names are looked up inside several calls. -/
def layers (m₀ : Variables) (extras : List Variables) : List Variables :=
  extras ++ m₀ :: ownLayers (partialsOf m₀) (helpersOf m₀) (innermost m₀ extras)

/-- What a name denotes inside several calls. -/
def denoted (m₀ : Variables) (extras : List Variables) (x : String) : Value :=
  if x = "self" then .record .reference []
  else ((layers m₀ extras).findSome? (·.lookup x)).getD (.missing (.name x))

section Nested

variable {m₀ m m' : Variables} {extras : List Variables} {p q : Page} {env : Env}

theorem Nested.model_eq (h : Nested m₀ extras q m) : m = innermost m₀ extras := by
  induction h with
  | start p => rfl
  | call h hargs hnames hopens ih =>
    obtain ⟨name, extra, g, hargs', -, rfl⟩ := hopens.eq_overlay
    cases hargs.symm.trans hargs'
    rw [ih]
    rfl

/-- **A variable is that of the innermost call that gives it**, or else that of the render. -/
theorem Nested.lookup_eq (h : Nested m₀ extras q m) (x : String) :
    m.lookup x = (extras.findSome? (·.lookup x)).or (m₀.lookup x) := by
  induction h with
  | start p => rfl
  | @call extras p m args named name extra q m' h hargs hnames hopens ih =>
    obtain ⟨name, extra, g, hargs', -, rfl⟩ := hopens.eq_overlay
    cases hargs.symm.trans hargs'
    rw [lookup_overlay hnames, ih, List.findSome?_cons]
    cases extra.lookup x <;> rfl

/-- The record about the render is what the innermost call that gives one says. -/
theorem Nested.metaFields_eq (h : Nested m₀ extras q m) : metaFields m =
    match extras.findSome? (·.lookup "view") with
    | some v => metaFields [("view", v)]
    | none => metaFields m₀ := by
  unfold metaFields
  rw [h.lookup_eq]
  cases extras.findSome? (·.lookup "view") with
  | none => rfl
  | some v => rfl

theorem Nested.metaFields_of_no_view (h : Nested m₀ extras q m)
    (hview : ∀ extra ∈ extras, extra.lookup "view" = none) : metaFields m = metaFields m₀ := by
  rw [h.metaFields_eq, List.findSome?_eq_none_iff.2 hview]

/-- A partial of the render can be called from any depth, with any further variables. -/
theorem Nested.extend (h : Nested m₀ extras q m) {name : Value} {g : Nat}
    (hp : partialOf (partialsOf m) name = .ok (.page g p)) {extra : Variables}
    (hnames : (extra.map Prod.fst).Nodup) (hname : extra.lookup "name" = none) :
    Nested m₀ (extra :: extras) p (Value.overlay m extra) := by
  have hargs := partialArguments_name name hname
  exact .call h hargs hnames (opens_caller hargs hp)

/-- Where no call gives another record about the render, the partials and helpers are those of the
render, and every name denotes what its layers say. -/
theorem Nested.lookup_env (h : Nested m₀ extras q m)
    (hview : ∀ extra ∈ extras, extra.lookup "view" = none) (henv : env.Inside m) {x : String}
    (hx : lookupScopes x env.scopes = none) : env.lookup x = denoted m₀ extras x := by
  have hmeta := h.metaFields_of_no_view hview
  unfold Env.lookup denoted
  rw [hx, Option.none_or]
  by_cases hself : x = "self"
  · rw [if_pos hself, Env.given?, if_pos hself]
    rfl
  · rw [if_neg hself, henv.given?_eq hself, partialsOf_congr hmeta, helpersOf_congr hmeta, layers,
      List.findSome?_append, List.findSome?_cons, List.findSome?_cons, h.lookup_eq, h.model_eq]
    cases extras.findSome? (·.lookup x) <;> rfl

/-- **Names in nested partials.** Inside calls of partials that give no other record about the
render, a name that the template has not set denotes what the first of the layers that has it says,
and `self` denotes the template. Behind any nodes, whatever partials they call, all names denote
what they denoted before, if others hold what the model holds or the nodes append to no list; and
what is then called is nested in the same calls. -/
theorem names_in_nested_partials (h : Nested m₀ extras q m)
    (hview : ∀ extra ∈ extras, extra.lookup "view" = none) (call : Calls) (henv : env.Inside m) :
    (∀ x, lookupScopes x env.scopes = none →
      eval call env (.name x) = .ok (denoted m₀ extras x)) ∧
    ∀ (ns : List Node) (r : Progress), env.Shared ∨ appendedIn ns = [] →
      runNodes call env ns = .ok r →
      (∀ x, lookupScopes x r.env.scopes = none →
        eval call r.env (.name x) = .ok (denoted m₀ extras x)) ∧
      ∀ args named name extra q' m', partialArguments args named = .ok (name, extra) →
        (extra.map Prod.fst).Nodup →
        Opens (.caller r.env.partials r.env.model) args named q' m' →
        Nested m₀ (extra :: extras) q' m' := by
  have hnames : ∀ env : Env, env.Inside m → ∀ x, lookupScopes x env.scopes = none →
      eval call env (.name x) = .ok (denoted m₀ extras x) := by
    intro env henv x hx
    rw [eval, h.lookup_env hview henv hx]
  refine ⟨hnames env henv, fun ns r hns hr => ?_⟩
  have hspares : env.Spares [] (appendedIn ns) := by
    rcases hns with hshared | hnone
    · exact .inr ⟨rfl, hshared⟩
    · exact .inl (hnone ▸ List.Subset.refl _)
  have hkeeps : env.Keeps [] r.env := keeps_runNodes env ns hspares r hr
  have hinside : r.env.Inside m := henv.keeps hkeeps
  refine ⟨hnames r.env hinside, fun args named name extra q' m' hargs hextra hopens => ?_⟩
  rw [hinside.partials, hinside.model] at hopens
  exact h.call hargs hextra hopens

end Nested

/-! ### Two calls inside each other -/

/-- The call of a partial by its name. -/
def calling (name : String) (extras : List (String × Expr)) : Expr :=
  .call (.name "partial") [.constant (.text name)] extras

/-- A page that prints two names. -/
def innerPage : Page := ⟨none, true, [.print (.name "x"), .print (.name "y")]⟩

/-- A page that hands another value of one name on, and prints the name. -/
def outerPage : Page :=
  ⟨none, true, [.print (calling "inner" [("x", .constant (.text "second"))]), .print (.name "x")]⟩

/-- The partials of a small render. -/
def smallPartials : Variables := [("outer", .page 0 outerPage), ("inner", .page 0 innerPage)]

/-- The model of a small render: two variables, two helpers and two partials. -/
def smallModel : Variables :=
  [("x", .str "model"), ("z", .str "model"), ("view", .record .attributes
    [("helpers", Value.ofFields [("h", .function "upper" .null), ("z", .function "upper" .null)]),
      ("partials", Value.ofFields smallPartials)])]

/-- The partials of the small render can be called wherever nothing is called `view`. -/
theorem nested_small {extras : List Variables} {p q : Page} {m : Variables}
    (h : Nested smallModel extras p m)
    (hview : ∀ extra ∈ extras, extra.lookup "view" = none) {name : String}
    (hname : smallPartials.lookup name = some (.page 0 q)) {extra : Variables}
    (hnames : (extra.map Prod.fst).Nodup) (hfree : extra.lookup "name" = none) :
    Nested smallModel (extra :: extras) q (Value.overlay m extra) := by
  have hpartials : partialsOf m = Value.ofFields smallPartials :=
    partialsOf_congr (h.metaFields_of_no_view hview)
  have hpartial : partialOf (partialsOf m) (Content.plain name).value = .ok (.page 0 q) := by
    rw [hpartials]
    exact partialOf_ofFields hname
  exact h.extend hpartial hnames hfree

/-- What two calls inside each other hand on, the innermost first. -/
def smallExtras : List Variables :=
  [[("x", .str "second")], [("x", .str "first"), ("y", .str "first")]]

theorem nested_smallExtras :
    Nested smallModel smallExtras innerPage (innermost smallModel smallExtras) := by
  have houter : Nested smallModel [[("x", .str "first"), ("y", .str "first")]] outerPage
      (innermost smallModel [[("x", .str "first"), ("y", .str "first")]]) :=
    nested_small (.start default) (fun _ h => nomatch h)
      (show smallPartials.lookup "outer" = some (.page 0 outerPage) from rfl) (by decide) rfl
  have hview : ∀ extra ∈ [[("x", Value.str "first"), ("y", .str "first")]],
      extra.lookup "view" = none := by
    rintro extra (- | ⟨-, ⟨⟩⟩)
    rfl
  exact nested_small houter hview
    (show smallPartials.lookup "inner" = some (.page 0 innerPage) from rfl) (by decide) rfl

theorem smallExtras_no_view : ∀ extra ∈ smallExtras, extra.lookup "view" = none := by
  rintro extra (- | ⟨-, - | ⟨-, ⟨⟩⟩⟩)
  · rfl
  · rfl

/-- In the innermost of two calls, names denote what it gives, what the call around it gives, what
the render gives, a helper, and nothing; and they do so behind what is printed first. -/
theorem names_in_nested_partials_small :
    let m := innermost smallModel smallExtras
    let call := callValue default (renderPage default 1)
    let ns : List Node := [.print (.name "x"), .print (calling "inner" [("x", .name "y")])]
    Nested smallModel smallExtras innerPage m ∧
      eval call (pageEnv true m) (.name "x") = .ok (.str "second") ∧
      eval call (pageEnv true m) (.name "y") = .ok (.str "first") ∧
      eval call (pageEnv true m) (.name "z") = .ok (.str "model") ∧
      eval call (pageEnv true m) (.name "h") = .ok (.function "upper" .null) ∧
      eval call (pageEnv true m) (.name "w") = .ok (.missing (.name "w")) ∧
      ∃ r, runNodes call (pageEnv true m) ns = .ok r ∧ r.out = "secondfirstfirst" ∧
        eval call r.env (.name "x") = .ok (.str "second") := by
  intro m call ns
  obtain ⟨hnames, hbehind⟩ :=
    names_in_nested_partials nested_smallExtras smallExtras_no_view call (inside_pageEnv true m)
  refine ⟨nested_smallExtras, hnames "x" rfl, hnames "y" rfl, hnames "z" rfl, hnames "h" rfl,
    hnames "w" rfl, ?_⟩
  have hran : (runNodes (callValue default (renderPage default 1))
      (pageEnv true (innermost smallModel smallExtras))
      [.print (.name "x"), .print (calling "inner" [("x", .name "y")])]).map
        (fun r => (r.out, (lookupScopes "x" r.env.scopes).isNone)) =
          .ok ("secondfirstfirst", true) := by
    decide +kernel
  cases hr : runNodes call (pageEnv true m) ns with
  | error e =>
    rw [hr] at hran
    cases hran
  | ok r =>
    rw [hr] at hran
    obtain ⟨hout, hscopes⟩ := Prod.mk.inj (Except.ok.inj hran)
    exact ⟨r, rfl, hout, (hbehind ns r (.inl (shared_pageEnv true m)) hr).1 "x"
      (Option.isNone_iff_eq_none.1 hscopes)⟩

/-- Names that are not looked up in this way: a variable `self` that a call gives is not what `self`
denotes; a function that every template knows is found where nothing else gives its name; and the
function `partial` of another template, handed on as a variable, opens a partial without the
variables of the call between. A name that a template sets denotes what it was set to, and a list
that a template changes in place, where nothing else holds it, is not what it was before. -/
theorem names_beside_layers :
    let call := callValue default (renderPage default 1)
    let own : List Variables := [[("self", .str "given")]]
    let handed : List Variables :=
      [[("partial", .caller (partialsOf smallModel) smallModel), ("y", .str "given")]]
    (Nested smallModel own outerPage (innermost smallModel own) ∧
      eval call (pageEnv true (innermost smallModel own)) (.name "self") =
        .ok (.record .reference [])) ∧
    (smallModel.lookup "range" = none ∧ (helpersOf smallModel).lookup "range" = none ∧
      eval call (pageEnv true smallModel) (.name "range") = .ok (.builtin "range")) ∧
    (Nested smallModel handed outerPage (innermost smallModel handed) ∧
      eval call (pageEnv true (innermost smallModel handed)) (.name "y") = .ok (.str "given") ∧
      eval call (pageEnv true (innermost smallModel handed)) (calling "inner" []) =
        .ok (.markup "model")) ∧
    (runNodes call (pageEnv true smallModel) [.assign (.name "x") (.constant (.text "own"))]).map
      (fun r => r.env.lookup "x") = .ok (.str "own") ∧
    (runNodes call { pageEnv true [("x", .list [])] with held := [] }
      [.print (.call (.attribute (.name "x") "append") [.constant (.bool true)] [])]).map
        (fun r => r.env.lookup "x") = .ok (.list [.bool true]) := by
  intro call own handed
  have hopened (extra : Variables) (hnames : (extra.map Prod.fst).Nodup)
      (hfree : extra.lookup "name" = none) :
      Nested smallModel [extra] outerPage (innermost smallModel [extra]) :=
    nested_small (.start default) (fun _ h => nomatch h)
      (show smallPartials.lookup "outer" = some (.page 0 outerPage) from rfl) hnames hfree
  have hinner : eval (callValue default (renderPage default 1)) (pageEnv true (innermost smallModel
      [[("partial", .caller (partialsOf smallModel) smallModel), ("y", .str "given")]]))
        (calling "inner" []) = .ok (.markup "model") := by
    with_unfolding_all rfl
  exact ⟨⟨hopened _ (by decide) rfl, rfl⟩, ⟨rfl, rfl, rfl⟩,
    ⟨hopened _ (by decide) rfl, rfl, hinner⟩, rfl, rfl⟩

end CachedViews.Template
