import CachedViews.Proofs.Fields
import CachedViews.Template.Render

/-
# What a template leaves as it was

A template sets variables of its own, and may put items at the end of a list that it names. It
changes nothing else about what its names stand for: however many partials are called on the way,
in expressions, blocks and loops, the names behind any nodes are given what they were given before
them (`keeps_runNodes`). Only the lists count as changed to which the nodes themselves append
(`appendedIn`); and not even they do where the caller of the template holds what the model holds,
as it does for all partials and for all templates of a view (`Env.Shared`): a change that another
one could see is not followed, but ends the render.

Key definitions: `Gives`, `appendedIn`, `Env.Shared`, `Env.Keeps`, `Env.Spares`.
Key theorems: `change_model`, `keeps_evalChanging`, `keeps_rounds`, `keeps_runNode`,
`keeps_runNodes`.
-/

namespace CachedViews.Template

/-! ### Results -/

/-- Whatever is the result, it has the property. -/
def Gives {α : Type} (P : α → Prop) (r : Except Fault α) : Prop := ∀ a, r = .ok a → P a

section Gives

variable {α β : Type} {P : α → Prop} {Q : β → Prop} {r : Except Fault α}
  {f : α → Except Fault β}

theorem gives_ok {a : α} (h : P a) : Gives P (.ok a) := by
  rintro b hb
  exact Except.ok.inj hb ▸ h

theorem gives_error (e : Fault) : Gives P (.error e) := fun _ h => nomatch h

theorem Gives.mono {P' : α → Prop} (hr : Gives P r) (h : ∀ a, P a → P' a) : Gives P' r :=
  fun a ha => h a (hr a ha)

theorem Gives.bind (hr : Gives P r) (hf : ∀ a, P a → Gives Q (f a)) : Gives Q (r >>= f) := by
  cases r with
  | error e => exact gives_error e
  | ok a => exact hf a (hr a rfl)

/-- What comes first may be anything. -/
theorem gives_behind (hf : ∀ a, Gives Q (f a)) : Gives Q (r >>= f) :=
  Gives.bind (P := fun _ => True) (fun _ _ => trivial) fun a _ => hf a

end Gives

/-! ### Lists that a template appends to -/

/-- The list that an expression puts an item into. -/
def Expr.appended (e : Expr) : List String := ((appended? e).map Prod.fst).toList

mutual

/-- The lists that a node puts items into. -/
def Node.appended : Node → List String
  | .print e | .run e => e.appended
  | .branch _ yes no => appendedIn yes ++ appendedIn no
  | .loop _ _ _ body no => appendedIn body ++ appendedIn no
  | .capture _ body => appendedIn body
  | .text _ | .assign _ _ | .leave | .next => []

/-- The lists that nodes put items into. -/
def appendedIn : List Node → List String
  | [] => []
  | n :: ns => n.appended ++ appendedIn ns

end

/-! ### Lists that others hold -/

/-- All that the model holds is held by others too. -/
def Env.Shared (env : Env) : Prop := ∀ f ∈ env.model, f.2 ∈ env.held

theorem shared_pageEnv (escapes : Bool) (model : List (String × Value)) :
    (pageEnv escapes model).Shared :=
  fun f hf => List.mem_map.2 ⟨f, hf, rfl⟩

theorem holdsList_self (xs : List Value) : holdsList (Value.list xs).shown (.list xs) = true := by
  simp [holdsList]

theorem anyHoldsList_of_mem {shown : String} {v : Value} {vs : List Value} (hv : v ∈ vs)
    (h : holdsList shown v = true) : anyHoldsList shown vs = true := by
  induction vs with
  | nil => cases hv
  | cons w vs ih =>
    rw [anyHoldsList, Bool.or_eq_true]
    rcases List.mem_cons.1 hv with rfl | hv
    · exact .inl h
    · exact .inr (ih hv)

theorem fieldsHoldList_of_mem {shown : String} {f : String × Value} {fs : List (String × Value)}
    (hf : f ∈ fs) (h : holdsList shown f.2 = true) : fieldsHoldList shown fs = true := by
  induction fs with
  | nil => cases hf
  | cons g fs ih =>
    rw [fieldsHoldList, Bool.or_eq_true]
    rcases List.mem_cons.1 hf with rfl | hf
    · exact .inl h
    · exact .inr (ih hf)

/-- A variable stands in no scope exactly if the scopes give it no value. -/
theorem inScopes_eq_none_iff {name : String} {v : Value} {scopes : List Scope} :
    Env.change.inScopes name v scopes = none ↔ lookupScopes name scopes = none := by
  induction scopes with
  | nil => exact iff_of_true rfl rfl
  | cons s scopes ih =>
    unfold Env.change.inScopes lookupScopes
    cases hs : s.lookup name with
    | some w => simp
    | none => simp [ih]

/-- A list that a name stands for is held by others, unless the template has set the name: it is
found in the model, as the partials or among the helpers. -/
theorem held_of_lookup {env : Env} (hshared : env.Shared) {name : String} {xs : List Value}
    (hunset : lookupScopes name env.scopes = none) (hlookup : env.lookup name = .list xs) :
    fieldsHoldList (Value.list xs).shown env.helpers = true ∨
      holdsList (Value.list xs).shown env.partials = true ∨
        anyHoldsList (Value.list xs).shown env.held = true := by
  rw [Env.lookup, hunset, Option.none_or, Env.given?] at hlookup
  split at hlookup
  · cases hlookup
  · cases hmodel : env.model.lookup name with
    | some w =>
      rw [hmodel] at hlookup
      obtain rfl : w = .list xs := hlookup
      exact .inr (.inr (anyHoldsList_of_mem (hshared _ (mem_of_lookup hmodel)) (holdsList_self xs)))
    | none =>
      rw [hmodel, Option.none_or] at hlookup
      split at hlookup
      · cases hlookup
      · split at hlookup
        · have hp : env.partials = .list xs := hlookup
          exact .inr (.inl (by rw [hp, holdsList_self]))
        · cases hhelper : env.helpers.lookup name with
          | some w =>
            rw [hhelper] at hlookup
            obtain rfl : w = .list xs := hlookup
            exact .inl (fieldsHoldList_of_mem (mem_of_lookup hhelper) (holdsList_self xs))
          | none =>
            rw [hhelper, Option.none_or] at hlookup
            split at hlookup <;> cases hlookup

/-- **A list of a model that others hold may not be changed**: one that may is a variable that the
template has set itself. -/
theorem change_model {env : Env} (hshared : env.Shared) {name : String} {xs : List Value}
    (hlookup : env.lookup name = .list xs) (hmay : env.mayChange name (.list xs) = true)
    (v : Value) : (env.change name v).model = env.model := by
  unfold Env.change
  cases hscopes : Env.change.inScopes name v env.scopes with
  | some scopes => rfl
  | none =>
    exfalso
    have hunset := inScopes_eq_none_iff.1 hscopes
    simp only [Env.mayChange, Env.change, inScopes_eq_none_iff.2 hunset, Bool.not_eq_true',
      Bool.or_eq_false_iff] at hmay
    obtain ⟨⟨⟨-, hhelpers⟩, hpartials⟩, hheld⟩ := hmay
    rcases held_of_lookup hshared hunset hlookup with h | h | h
    · exact Bool.eq_false_iff.1 hhelpers h
    · exact Bool.eq_false_iff.1 hpartials h
    · exact Bool.eq_false_iff.1 hheld h

/-! ### Names that are kept -/

/-- What the names of a template are given is the same, except for lists of the names `changed`.
The template may have set other variables of its own. -/
structure Env.Keeps (changed : List String) (env env' : Env) : Prop where
  model : (env'.model.filter fun f => !changed.contains f.1) =
    env.model.filter fun f => !changed.contains f.1
  partials : env'.partials = env.partials
  helpers : env'.helpers = env.helpers
  escapes : env'.escapes = env.escapes
  held : env'.held = env.held

/-- The lists of the names are among those that may change, or none may, because others hold what
the model holds. -/
def Env.Spares (changed : List String) (env : Env) (names : List String) : Prop :=
  names ⊆ changed ∨ changed = [] ∧ env.Shared

namespace Env.Keeps

variable {changed : List String} {env env' env'' : Env}

theorem refl (env : Env) : env.Keeps changed env := ⟨rfl, rfl, rfl, rfl, rfl⟩

theorem trans (h : env.Keeps changed env') (h' : env'.Keeps changed env'') :
    env.Keeps changed env'' where
  model := h'.model.trans h.model
  partials := h'.partials.trans h.partials
  helpers := h'.helpers.trans h.helpers
  escapes := h'.escapes.trans h.escapes
  held := h'.held.trans h.held

theorem model_eq (h : env.Keeps [] env') : env'.model = env.model := by
  simpa using h.model

/-- Variables that the template sets do not count. -/
theorem of_scopes (scopes : List Scope) (h : env.Keeps changed env') :
    env.Keeps changed { env' with scopes } :=
  ⟨h.model, h.partials, h.helpers, h.escapes, h.held⟩

/-- Behind an inner scope, the names are given what they were given before it. -/
theorem of_inner (h : env.inner.Keeps changed env') : env.Keeps changed env'.outer :=
  (of_scopes _ (.refl env)).trans (h.of_scopes _)

/-- Behind a loop, which holds its items meanwhile, the names are given what they were given before
it. -/
theorem of_holding {v : Value} (h : { env with held := v :: env.held }.Keeps changed env') :
    env.Keeps changed { env' with held := env'.held.tail } where
  model := h.model
  partials := h.partials
  helpers := h.helpers
  escapes := h.escapes
  held := by rw [h.held, List.tail_cons]

theorem assign (h : env.Keeps changed env') (name : String) (v : Value) :
    env.Keeps changed (env'.assign name v) := by
  unfold Env.assign
  split
  · exact h.of_scopes _
  · exact h.of_scopes _

theorem assignAll (h : env.Keeps changed env') (parts : List (Target × Value)) :
    env.Keeps changed (Template.assignAll env' parts) := by
  induction parts generalizing env' with
  | nil => exact h
  | cons part parts ih =>
    match part with
    | (.name n, v) => exact ih (h.assign n v)
    | (.tuple targets, v) => exact ih h
    | (.attribute object field, v) => exact ih h

theorem assignTo (h : env.Keeps changed env') (target : Target) (v : Value) :
    Gives (env.Keeps changed) (Template.assignTo env' target v) := by
  match target with
  | .name n => exact gives_ok (h.assign n v)
  | .attribute object field => exact gives_error _
  | .tuple targets =>
    unfold Template.assignTo
    dsimp only
    split
    · exact gives_error _
    · split
      · exact gives_error _
      · split
        · exact gives_error _
        · exact gives_ok (h.assignAll _)

/-- A change of a list of one of the names. -/
theorem change (env : Env) {name : String} (hname : name ∈ changed) (v : Value) :
    env.Keeps changed (env.change name v) := by
  unfold Env.change
  split
  · exact (refl env).of_scopes _
  · have hkeep : (!changed.contains name) = false := by simpa using hname
    exact ⟨filter_insertField (fun n => !changed.contains n) hkeep v _, rfl, rfl, rfl, rfl⟩

/-- A change that leaves the model as it is. -/
theorem change_of_model {name : String} {v : Value} (h : (env.change name v).model = env.model) :
    env.Keeps changed (env.change name v) := by
  refine ⟨by rw [h], ?_, ?_, ?_, ?_⟩ <;>
  · unfold Env.change
    split <;> rfl

end Env.Keeps

namespace Env.Spares

variable {changed names names' : List String} {env env' : Env}

theorem mono (h : env.Spares changed names) (hnames : names' ⊆ names) :
    env.Spares changed names' :=
  h.imp_left fun hall _ hn => hall (hnames hn)

theorem of_scopes (scopes : List Scope) (h : env.Spares changed names) :
    { env with scopes }.Spares changed names := h

theorem of_holding (v : Value) (h : env.Spares changed names) :
    { env with held := v :: env.held }.Spares changed names :=
  h.imp_right fun h => ⟨h.1, fun f hf => List.mem_cons_of_mem _ (h.2 f hf)⟩

theorem of_keeps (h : env.Spares changed names) (hk : env.Keeps changed env') :
    env'.Spares changed names := by
  rcases h with h | ⟨rfl, hshared⟩
  · exact .inl h
  · refine .inr ⟨rfl, fun f hf => ?_⟩
    rw [hk.held]
    exact hshared f (hk.model_eq ▸ hf)

end Env.Spares

/-! ### Running nodes -/

section Running

variable {changed : List String} {call : Calls}

theorem keeps_evalChanging (env : Env) {e : Expr} (he : env.Spares changed e.appended) :
    Gives (fun r => env.Keeps changed r.2) (evalChanging call env e) := by
  unfold evalChanging
  cases ha : appended? e with
  | none => exact gives_behind fun v => gives_ok (.refl env)
  | some target =>
    obtain ⟨n, item⟩ := target
    dsimp only
    split
    · rename_i xs hlist
      refine gives_behind fun v => ?_
      split
      · rename_i hmay
        rw [Bool.and_eq_true] at hmay
        refine gives_ok ?_
        rcases he with hn | ⟨rfl, hshared⟩
        · exact .change env (hn (by simp [Expr.appended, ha])) _
        · exact .change_of_model (change_model hshared hlist hmay.1 _)
      · exact gives_error _
    · exact gives_behind fun v => gives_ok (.refl env)

/-- If every round of a loop keeps the names, so does the loop. -/
theorem keeps_rounds {round : Env → Value → Nat → Except Fault Progress} {names : List String}
    (hround : ∀ env item index, env.Spares changed names →
      Gives (fun p => env.Keeps changed p.env) (round env item index))
    (items : List Value) (index : Nat) (env : Env) (h : env.Spares changed names) :
    Gives (fun r => env.Keeps changed r.2) (rounds round items index env) := by
  induction items generalizing index env with
  | nil => exact gives_ok (.refl env)
  | cons item items ih =>
    unfold rounds
    refine (hround env.inner item index (h.of_scopes _)).bind fun p hp => ?_
    have hout : env.Keeps changed p.env.outer := hp.of_inner
    split
    · exact gives_ok hout
    · exact (ih (index + 1) p.env.outer (h.of_keeps hout)).bind fun r hr =>
        gives_ok (hout.trans hr)

mutual

/-- **A node changes no names but the lists that it appends to**, whatever it calls, and not even
these if others hold what the model holds. -/
theorem keeps_runNode (env : Env) : (n : Node) → env.Spares changed n.appended →
    Gives (fun p => env.Keeps changed p.env) (runNode call env n)
  | .text s, _ => gives_ok (.refl env)
  | .leave, _ => gives_ok (.refl env)
  | .next, _ => gives_ok (.refl env)
  | .print e, h => by
    rw [Node.appended] at h
    rw [runNode]
    exact (keeps_evalChanging env h).bind fun r hr => gives_ok hr
  | .run e, h => by
    rw [Node.appended] at h
    rw [runNode]
    exact (keeps_evalChanging env h).bind fun r hr => gives_ok hr
  | .assign target e, _ => by
    rw [runNode]
    refine gives_behind fun _ => gives_behind fun v => ?_
    exact ((Env.Keeps.refl env).assignTo target v).bind fun env' henv => gives_ok henv
  | .branch condition yes no, h => by
    rw [Node.appended] at h
    rw [runNode]
    refine gives_behind fun v => ?_
    split
    · exact keeps_runNodes env yes (h.mono (List.subset_append_left _ _))
    · exact keeps_runNodes env no (h.mono (List.subset_append_right _ _))
  | .capture target body, h => by
    rw [Node.appended] at h
    rw [runNode]
    have hbody := keeps_runNodes env.inner body (h.of_scopes _)
    refine hbody.bind fun p hp => ?_
    have hout : env.Keeps changed p.env.outer := hp.of_inner
    split
    · exact (hout.assignTo target _).bind fun env' henv => gives_ok henv
    · exact gives_ok hout
  | .loop target items condition body no, h => by
    rw [Node.appended] at h
    have hbody := h.mono (List.subset_append_left _ _)
    rw [runNode]
    refine gives_behind fun _ => gives_behind fun items => gives_behind fun items => ?_
    split
    · have hno := keeps_runNodes env.inner no (h.mono (List.subset_append_right _ _))
      exact hno.bind fun p hp => gives_ok hp.of_inner
    · refine Gives.bind (keeps_rounds (fun env item index henv => ?_) items 0 _
        (hbody.of_holding (.list items))) fun r hr => gives_ok hr.of_holding
      -- a round gives the names of the loop their values before it runs the body
      have hloop : env.Keeps changed (env.assign "loop" (loopRecord items index)) :=
        (Env.Keeps.refl env).assign "loop" _
      exact (hloop.assignTo target item).bind fun env' hstart =>
        (keeps_runNodes env' body (henv.of_keeps hstart)).mono fun p hp => hstart.trans hp

/-- **Nodes change no names but the lists that they append to**, whatever they call, and not even
these if others hold what the model holds. -/
theorem keeps_runNodes (env : Env) : (ns : List Node) → env.Spares changed (appendedIn ns) →
    Gives (fun p => env.Keeps changed p.env) (runNodes call env ns)
  | [], _ => gives_ok (.refl env)
  | n :: ns, h => by
    rw [appendedIn] at h
    rw [runNodes]
    have hn := keeps_runNode env n (h.mono (List.subset_append_left _ _))
    refine hn.bind fun p hp => ?_
    split
    · have hns := (h.mono (List.subset_append_right _ _)).of_keeps hp
      exact (keeps_runNodes p.env ns hns).bind fun q hq => gives_ok (hp.trans hq)
    · exact gives_ok hp

end

end Running

end CachedViews.Template
