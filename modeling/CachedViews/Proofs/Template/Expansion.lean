import CachedViews.Proofs.Fields
import CachedViews.Template.Environment
import Mathlib.Data.List.Perm.Subperm
import Mathlib.Logic.Relation

/-
# The expansion of a template

A template that consists of literal text, of names whose contents are printed and of calls of
partials has an expansion: literals stand in it as they are, plain contents are escaped where
they are printed, markup is not, and a call stands for the expansion of the partial. Rendering
such a page gives its expansion as markup (`Told.renderPage_eq`), so that a content is escaped
once, through however many partials it has come.

What a partial is called with lies on top of what its caller knows (`Bindings.extended`). Calls
are expanded up to a depth, and a template fits a depth if no call in it is nested deeper
(`Book.Fits`).

Key definitions: `Piece`, `Content`, `Bindings`, `Book.expand`, `Book.Fits`, `Told`.
Key theorems: `Told.extended`, `Told.runNode_piece`, `Told.renderPage_eq`, `Book.fits_of_acyclic`.
-/

namespace CachedViews.Template

open CachedViews.Text

/-! ### Pieces -/

/-- What a call is given: a quoted text or a variable. -/
inductive Operand where
  | quoted (s : String)
  | named (x : String)
  deriving Repr, DecidableEq

/-- A piece of a template. -/
inductive Piece where
  | literal (s : String)
  /-- A name whose content is printed. -/
  | output (x : String)
  /-- A call of a partial, with further variables. -/
  | call (name : Operand) (extras : List (String × Operand))
  deriving Repr, DecidableEq

/-- The expression that an operand is written as. -/
def Operand.expr : Operand → Expr
  | .quoted s => .constant (.text s)
  | .named x => .name x

/-- The node that a piece is written as. -/
def Piece.node : Piece → Node
  | .literal s => .text s
  | .output x => .print (.name x)
  | .call name extras =>
    .print (.call (.name "partial") [name.expr] (extras.map fun k => (k.1, k.2.expr)))

/-- The partials of a view: their names, and what they consist of. -/
abbrev Book := List (String × List Piece)

/-! ### Contents -/

/-- What a variable holds. -/
inductive Content where
  | plain (s : String)
  | markup (s : String)
  deriving Repr, DecidableEq

/-- The characters of a content. -/
def Content.text : Content → String
  | .plain s | .markup s => s

/-- How a content stands in a template: escaped, unless it is markup. -/
def Content.shown : Content → String
  | .plain s => escapeString s
  | .markup s => s

/-- The value of a variable with the content. -/
def Content.value : Content → Value
  | .plain s => .str s
  | .markup s => .markup s

/-- What names stand for. -/
abbrev Bindings := String → Option Content

/-- The content of an operand. -/
def Operand.content (σ : Bindings) : Operand → Option Content
  | .quoted s => some (.plain s)
  | .named x => σ x

/-- What names stand for in a partial that is called with further variables. -/
def Bindings.extended (σ : Bindings) (extras : List (String × Operand)) : Bindings := fun x =>
  match extras.lookup x with
  | some o => o.content σ
  | none => σ x

/-! ### Expansion -/

section Expansion

variable (inside : String → Bindings → String)

/-- The text that a piece stands for, given the texts of partials. -/
def Piece.expansion (σ : Bindings) : Piece → String
  | .literal s => s
  | .output x => ((σ x).map Content.shown).getD ""
  | .call name extras =>
    ((name.content σ).map fun c => inside c.text (σ.extended extras)).getD ""

/-- The texts of pieces in order. -/
def expansionOf (σ : Bindings) (ps : List Piece) : String :=
  String.join (ps.map fun p => p.expansion inside σ)

end Expansion

/-- The text that pieces stand for. Calls are expanded up to a depth. -/
def Book.expand (book : Book) : Nat → Bindings → List Piece → String
  | 0 => expansionOf fun _ _ => ""
  | depth + 1 => expansionOf fun n σ => book.expand depth σ ((book.lookup n).getD [])

/-! ### Templates that have an expansion -/

/-- The names that are not for variables. -/
def keptNames : List String := ["partial", "partials", "self", "view"]

section Fits

variable (others : List String) (inside : String → Bindings → Prop)

/-- A name stands for a content or for nothing at all. The others are the names that may stand for
something else. -/
def Readable (σ : Bindings) (x : String) : Prop :=
  x ∉ keptNames ∧ (x ∈ others → σ x ≠ none)

/-- An operand can be handed on. -/
def Operand.Fits (σ : Bindings) : Operand → Prop
  | .quoted _ => True
  | .named x => Readable others σ x

/-- Further variables can be handed on: each has a name of its own, which is none of those that a
call gives a meaning. -/
def ExtrasFit (σ : Bindings) (extras : List (String × Operand)) : Prop :=
  (extras.map Prod.fst).Nodup ∧
    ∀ k ∈ extras, k.1 ∉ ["name", "partial", "partials", "view"] ∧ k.2.Fits others σ

/-- A name that is printed can be read, and a call is one of a partial, which fits. -/
def Piece.Fits (σ : Bindings) : Piece → Prop
  | .literal _ => True
  | .output x => Readable others σ x
  | .call name extras =>
    ExtrasFit others σ extras ∧ name.Fits others σ ∧
      ∃ c, name.content σ = some c ∧ inside c.text (σ.extended extras)

end Fits

/-- The pieces fit, and calls are not nested deeper than the depth. -/
def Book.Fits (book : Book) (others : List String) : Nat → Bindings → List Piece → Prop
  | 0 => fun σ ps => ∀ p ∈ ps, p.Fits others (fun _ _ => False) σ
  | depth + 1 => fun σ ps => ∀ p ∈ ps, p.Fits others (fun n σ =>
      ∃ inner, book.lookup n = some inner ∧ book.Fits others depth σ inner) σ

/-! ### Pages and variables -/

/-- The value is a page that consists of the pieces and escapes what it prints. -/
def IsPageOf (v : Value) (ps : List Piece) : Prop :=
  ∃ g p, v = .page g p ∧ p.escapes = true ∧ p.body = ps.map Piece.node

/-- What a variable is bound to has the content; a variable without content is unbound or
bound to a missing value. -/
inductive Bound : Option Value → Option Content → Prop where
  | content (c : Content) : Bound (some c.value) (some c)
  | missing (m : Missing) : Bound (some (.missing m)) none
  | unbound : Bound none none

/-- The variables of a render are what the bindings say, and bring the partials of the book in a
record that is there. What is neither a content nor missing has one of the other names. -/
structure Told (others : List String) (book : Book) (model : List (String × Value))
    (σ : Bindings) : Prop where
  contents : ∀ x, Readable others σ x → Bound (model.lookup x) (σ x)
  caller : model.lookup "partial" = none
  checked : checkMeta model = .ok ()
  helpers : ∀ x, x ∉ others → (helpersOf model).lookup x = none ∧ x ∉ builtinNames
  partials : ∀ (c : Content) ps, book.lookup c.text = some ps →
    ∃ v, partialOf (partialsOf model) c.value = .ok v ∧ IsPageOf v ps

variable {others : List String} {book : Book} {model : List (String × Value)} {σ : Bindings}

@[simp] theorem printed_value (c : Content) : printed true c.value = c.shown := by
  cases c <;> rfl

@[simp] theorem printed_missing (m : Missing) : printed true (.missing m) = "" := rfl

@[simp] theorem printed_markup (escapes : Bool) (s : String) :
    printed escapes (.markup s) = s := by
  cases escapes <;> rfl

/-! ### Partials by their names -/

theorem same_value (c : Content) (k : String) :
    Value.same c.value (.str k) = (c.text == k) := by
  cases c <;> simp [Content.value, Content.text, Value.same]

/-- Markup is looked up as the plain text of its characters. -/
theorem partialOf_ofFields {fields : List (String × Value)} {c : Content} {v : Value}
    (h : fields.lookup c.text = some v) :
    partialOf (Value.ofFields fields) c.value = .ok v := by
  have hhash : c.value.isHashable = true := by cases c <;> rfl
  have hitem : ownItem? (Value.ofFields fields) c.value = some v := by
    simp only [Value.ofFields, ownItem?, hhash, if_true]
    induction fields with
    | nil => cases h
    | cons f fields ih =>
      rw [List.lookup_cons] at h
      rw [List.map_cons, List.find?_cons, same_value]
      cases hk : c.text == f.1 with
      | true =>
        rw [hk] at h
        exact h
      | false =>
        rw [hk] at h
        exact ih h
  unfold partialOf
  rw [hhash, hitem]
  rfl

/-! ### Names and operands -/

/-- The value of an operand. -/
def Operand.value (model : List (String × Value)) : Operand → Value
  | .quoted s => .str s
  | .named x => (pageEnv true model).lookup x

/-- A name that can be read stands for its content, or for a missing value. -/
theorem Told.bound_lookup (h : Told others book model σ) {x : String}
    (hx : Readable others σ x) : Bound (some ((pageEnv true model).lookup x)) (σ x) := by
  have hbound := h.contents x hx
  obtain ⟨hkept, hother⟩ := hx
  simp only [keptNames, List.mem_cons, List.not_mem_nil, not_or, or_false] at hkept
  obtain ⟨hpartial, hpartials, hself, -⟩ := hkept
  have hlookup : (pageEnv true model).lookup x = ((model.lookup x).or
      (((helpersOf model).lookup x).or
        (if x ∈ builtinNames then some (.builtin x) else none))).getD (.missing (.name x)) := by
    simp [Env.lookup, Env.given?, pageEnv, lookupScopes, hself, hpartial, hpartials]
  rw [hlookup]
  generalize model.lookup x = found at hbound ⊢
  generalize hc : σ x = content at hbound ⊢
  cases hbound with
  | content c => exact .content c
  | missing m => exact .missing m
  | unbound =>
    obtain ⟨hhelper, hbuiltin⟩ := h.helpers x fun hmem => hother hmem hc
    rw [hhelper, if_neg hbuiltin]
    exact .missing _

theorem Told.bound_value (h : Told others book model σ) {o : Operand}
    (ho : o.Fits others σ) : Bound (some (o.value model)) (o.content σ) := by
  cases o with
  | quoted s => exact .content (.plain s)
  | named x => exact h.bound_lookup ho

theorem Bound.value_eq {v : Value} {c : Content} (h : Bound (some v) (some c)) : v = c.value := by
  cases h
  rfl

theorem Bound.printed_eq {v : Value} {content : Option Content} (h : Bound (some v) content) :
    printed true v = (content.map Content.shown).getD "" := by
  cases h with
  | content c => exact printed_value c
  | missing m => exact printed_missing m

/-! ### Further variables -/

/-- The values of further variables. -/
def extraValues (model : List (String × Value)) (extras : List (String × Operand)) :
    List (String × Value) :=
  extras.map fun k => (k.1, k.2.value model)

section Extras

variable {extras : List (String × Operand)}

theorem ExtrasFit.lookup_eq_none (h : ExtrasFit others σ extras) {x : String}
    (hx : x ∈ ["name", "partial", "partials", "view"]) : extras.lookup x = none :=
  lookup_eq_none_of_not_mem fun k hk he => (h.2 k hk).1 (he ▸ hx)

theorem ExtrasFit.lookup_overlay (h : ExtrasFit others σ extras)
    (model : List (String × Value)) (x : String) :
    (Value.overlay model (extraValues model extras)).lookup x =
      ((extras.lookup x).map (Operand.value model)).or (model.lookup x) := by
  have hn : ((extraValues model extras).map Prod.fst).Nodup := by
    simpa [extraValues, Function.comp_def] using h.1
  rw [CachedViews.lookup_overlay hn, extraValues, lookup_map_snd]

/-- A partial has the partials and helpers of its caller. -/
theorem ExtrasFit.metaFields_overlay (h : ExtrasFit others σ extras)
    (model : List (String × Value)) :
    metaFields (Value.overlay model (extraValues model extras)) = metaFields model := by
  unfold metaFields
  rw [h.lookup_overlay, h.lookup_eq_none (by decide)]
  rfl

theorem ExtrasFit.partialsOf_overlay (h : ExtrasFit others σ extras)
    (model : List (String × Value)) :
    partialsOf (Value.overlay model (extraValues model extras)) = partialsOf model := by
  unfold partialsOf
  rw [h.metaFields_overlay]

/-- A partial is told what its caller is, and the further variables. -/
theorem Told.extended (h : Told others book model σ) (he : ExtrasFit others σ extras) :
    Told others book (Value.overlay model (extraValues model extras)) (σ.extended extras) where
  contents x hx := by
    rw [he.lookup_overlay]
    unfold Readable Bindings.extended at hx
    unfold Bindings.extended
    cases ho : extras.lookup x with
    | none =>
      rw [ho] at hx
      exact h.contents x hx
    | some o =>
      exact h.bound_value (he.2 (x, o) (mem_of_lookup ho)).2
  caller := by
    rw [he.lookup_overlay, he.lookup_eq_none (by decide)]
    exact h.caller
  checked := by
    unfold checkMeta
    rw [he.lookup_overlay, he.lookup_eq_none (by decide)]
    exact h.checked
  helpers := by
    unfold helpersOf
    rw [he.metaFields_overlay]
    exact h.helpers
  partials := by
    rw [he.partialsOf_overlay]
    exact h.partials

end Extras

/-! ### Rendering -/

theorem eval_operand (call : Calls) (o : Operand) :
    eval call (pageEnv true model) o.expr = .ok (o.value model) := by
  cases o <;> simp [Operand.expr, eval, Operand.value, Constant.value]

theorem evalNamed_extras (call : Calls) (extras : List (String × Operand)) :
    evalNamed call (pageEnv true model) (extras.map fun k => (k.1, k.2.expr)) =
      .ok (extraValues model extras) := by
  induction extras with
  | nil => simp [evalNamed, extraValues]
  | cons k extras ih =>
    rw [List.map_cons, evalNamed, eval_operand, ih]
    rfl

theorem modelOf_ofFields (fields : List (String × Value)) :
    modelOf (Value.ofFields fields) [] = .ok fields := by
  cases fields with
  | nil => rfl
  | cons k fields =>
    exact (if_pos (textKeys_map (k :: fields))).trans
      (congrArg Except.ok (stringFields_map (k :: fields)))

/-- A call of a partial enters its page, which is told what the caller is and the further
variables. -/
theorem Told.eval_call (h : Told others book model σ) {rt : Runtime} {enter : Pages} {name : Operand}
    {extras : List (String × Operand)} (hextras : ExtrasFit others σ extras)
    (hname : name.Fits others σ) {c : Content} (hc : name.content σ = some c) {g : Nat} {p : Page}
    (hp : partialOf (partialsOf model) c.value = .ok (.page g p)) :
    eval (callValue rt enter) (pageEnv true model)
      (.call (.name "partial") [name.expr] (extras.map fun k => (k.1, k.2.expr))) =
        enter p (Value.overlay model (extraValues model extras)) := by
  have hcaller : (pageEnv true model).lookup "partial" = .caller (partialsOf model) model := by
    simp [Env.lookup, Env.given?, pageEnv, lookupScopes, h.caller]
  have hargs : evalAll (callValue rt enter) (pageEnv true model) [name.expr] = .ok [c.value] := by
    have hvalue : name.value model = c.value := (hc ▸ h.bound_value hname).value_eq
    rw [evalAll, eval_operand, hvalue]
    rfl
  have hpartial : partialArguments [c.value] (extraValues model extras) =
      .ok (c.value, extraValues model extras) := by
    have hnone : (extraValues model extras).lookup "name" = none := by
      rw [extraValues, lookup_map_snd, hextras.lookup_eq_none (by decide)]
      rfl
    simp [partialArguments, hnone]
  rw [eval, eval, hargs, evalNamed_extras, hcaller]
  change callValue rt enter (.caller (partialsOf model) model) [c.value] (extraValues model extras) = _
  unfold callValue
  rw [hpartial]
  change (partialOf (partialsOf model) c.value >>= _) = _
  rw [hp]
  change (modelOf (Value.ofFields (Value.overlay model (extraValues model extras))) [] >>= _) = _
  rw [modelOf_ofFields]
  rfl

/-- Entering a page gives the text of the partial, as markup. -/
def RendersAs (others : List String) (book : Book) (enter : Pages)
    (fits : String → Bindings → Prop) (text : String → Bindings → String) : Prop :=
  ∀ model σ (c : Content), Told others book model σ → fits c.text σ →
    ∃ g p, partialOf (partialsOf model) c.value = .ok (.page g p) ∧
      enter p model = .ok (.markup (text c.text σ))

section Pieces

variable {rt : Runtime} {enter : Pages} {fits : String → Bindings → Prop}
  {text : String → Bindings → String}

/-- A call of a partial gives the text of the partial. -/
theorem Told.eval_call_eq (h : Told others book model σ)
    (henter : RendersAs others book enter fits text) {name : Operand}
    {extras : List (String × Operand)} (hp : (Piece.call name extras).Fits others fits σ) :
    eval (callValue rt enter) (pageEnv true model)
      (.call (.name "partial") [name.expr] (extras.map fun k => (k.1, k.2.expr))) =
        .ok (.markup ((Piece.call name extras).expansion text σ)) := by
  obtain ⟨hextras, hname, c, hc, hfits⟩ := hp
  obtain ⟨g, p, hpartial, hrender⟩ := henter _ _ c (h.extended hextras) hfits
  rw [hextras.partialsOf_overlay] at hpartial
  rw [h.eval_call hextras hname hc hpartial, hrender, Piece.expansion, hc]
  rfl

/-- A piece is rendered as its text. -/
theorem Told.runNode_piece (h : Told others book model σ)
    (henter : RendersAs others book enter fits text) {p : Piece}
    (hp : p.Fits others fits σ) :
    runNode (callValue rt enter) (pageEnv true model) p.node =
      .ok ⟨p.expansion text σ, pageEnv true model, .done⟩ := by
  cases p with
  | literal s => rfl
  | output x =>
    have hshown := (h.bound_lookup hp).printed_eq
    rw [Piece.expansion, ← hshown]
    rfl
  | call name extras =>
    have hcall : eval (callValue rt enter) _ _ = _ := h.eval_call_eq henter hp
    simp only [Piece.node, runNode, evalChanging, appended?, hcall, Bind.bind, Except.bind, pure,
      Except.pure, printed_markup]

theorem Told.runNodes_pieces (h : Told others book model σ)
    (henter : RendersAs others book enter fits text) {ps : List Piece}
    (hps : ∀ p ∈ ps, p.Fits others fits σ) :
    runNodes (callValue rt enter) (pageEnv true model) (ps.map Piece.node) =
      .ok ⟨expansionOf text σ ps, pageEnv true model, .done⟩ := by
  induction ps with
  | nil => simp [runNodes, expansionOf]
  | cons p ps ih =>
    have hp : runNode (callValue rt enter) _ _ = _ :=
      h.runNode_piece henter (hps p List.mem_cons_self)
    have hrest := ih fun q hq => hps q (List.mem_cons_of_mem _ hq)
    simp only [List.map_cons, runNodes, hp, hrest, Bind.bind, Except.bind, pure, Except.pure,
      if_true, expansionOf, String.join_cons]

theorem Told.renderPage_pieces (h : Told others book model σ) {limit : Nat}
    (henter : RendersAs others book (renderPage rt limit) fits text) {ps : List Piece}
    (hps : ∀ p ∈ ps, p.Fits others fits σ) {p : Page} (hescapes : p.escapes = true)
    (hbody : p.body = ps.map Piece.node) :
    renderPage rt (limit + 1) p model = .ok (.markup (expansionOf text σ ps)) := by
  simp only [renderPage, h.checked, hescapes, hbody, h.runNodes_pieces henter hps, Bind.bind,
    Except.bind, pure, Except.pure]

end Pieces

/-- **A page is rendered as its expansion.** If its pieces fit a depth that is less than the
bound, rendering the page gives their expansion as markup. -/
theorem Told.renderPage_eq (h : Told others book model σ) {rt : Runtime} {depth limit : Nat}
    (hlimit : depth < limit) {ps : List Piece} (hps : book.Fits others depth σ ps) {p : Page}
    (hescapes : p.escapes = true) (hbody : p.body = ps.map Piece.node) :
    renderPage rt limit p model = .ok (.markup (book.expand depth σ ps)) := by
  obtain ⟨limit, rfl⟩ := Nat.exists_eq_succ_of_ne_zero (Nat.ne_zero_of_lt hlimit)
  induction depth generalizing limit model σ ps p with
  | zero => exact h.renderPage_pieces (fun _ _ _ _ hfalse => hfalse.elim) hps hescapes hbody
  | succ depth ih =>
    refine h.renderPage_pieces ?_ hps hescapes hbody
    -- what is called fits the depth below
    rintro model σ c htold ⟨inner, hinner, hfits⟩
    obtain ⟨v, hv, g, p, rfl, hescapes, hbody⟩ := htold.partials c inner hinner
    obtain ⟨limit, rfl⟩ := Nat.exists_eq_succ_of_ne_zero (n := limit) (by omega)
    refine ⟨g, p, hv, ?_⟩
    dsimp only
    rw [ih htold hfits hescapes hbody limit (by omega), hinner, Option.getD_some]

/-! ### Calls that are nested too deep -/

/-- A template begins with a call that leads down a number of calls. -/
def Book.Descends (book : Book) : Nat → List Piece → Prop
  | 0 => fun _ => True
  | depth + 1 => fun ps => ∃ n rest inner,
      ps = .call (.quoted n) [] :: rest ∧ book.lookup n = some inner ∧ book.Descends depth inner

/-- **Calls that are nested as deep as the bound fail.** -/
theorem Told.renderPage_descends (h : Told others book model σ) {rt : Runtime} {limit : Nat}
    {ps : List Piece} (hps : book.Descends limit ps) {p : Page} (hescapes : p.escapes = true)
    (hbody : p.body = ps.map Piece.node) : renderPage rt limit p model = .error .recursion := by
  induction limit generalizing ps p with
  | zero => rfl
  | succ limit ih =>
    obtain ⟨n, rest, inner, rfl, hinner, hdescends⟩ := hps
    obtain ⟨v, hv, g, q, rfl, hq, hinside⟩ := h.partials (.plain n) inner hinner
    have hnothing : ExtrasFit others σ [] := ⟨List.nodup_nil, fun _ hk => nomatch hk⟩
    have hname : (Operand.quoted n).Fits others σ := trivial
    have hcall : eval (callValue rt (renderPage rt limit)) (pageEnv true model)
        (.call (.name "partial") [(Operand.quoted n).expr] []) = .error .recursion :=
      (h.eval_call hnothing hname rfl hv).trans (ih hdescends hq hinside)
    simp only [renderPage, h.checked, hescapes, hbody, List.map_cons, List.map_nil, runNodes,
      Piece.node, runNode, evalChanging, appended?, hcall, Bind.bind, Except.bind]

/-! ### Partials without cycles -/

/-- A partial calls another one. -/
def Book.Invokes (book : Book) (n m : String) : Prop :=
  ∃ ps extras, book.lookup n = some ps ∧ .call (.quoted m) extras ∈ ps

/-- An operand that can be handed on whatever the variables are. -/
def Operand.Plain (others : List String) : Operand → Prop
  | .quoted _ => True
  | .named x => x ∉ keptNames ∧ x ∉ others

/-- A condition on the piece alone: its names are none of the others, and it calls a partial of
the book by its name. -/
def Piece.Plain (book : Book) (others : List String) : Piece → Prop
  | .literal _ => True
  | .output x => x ∉ keptNames ∧ x ∉ others
  | .call (.quoted n) extras =>
    (extras.map Prod.fst).Nodup ∧
      (∀ k ∈ extras, k.1 ∉ ["name", "partial", "partials", "view"] ∧ k.2.Plain others) ∧
      (book.lookup n).isSome = true
  | .call (.named _) _ => False

instance (others : List String) (o : Operand) : Decidable (o.Plain others) :=
  match o with
  | .quoted _ => inferInstanceAs (Decidable True)
  | .named x => inferInstanceAs (Decidable (x ∉ keptNames ∧ x ∉ others))

instance (book : Book) (others : List String) (p : Piece) : Decidable (p.Plain book others) :=
  match p with
  | .literal _ => inferInstanceAs (Decidable True)
  | .output x => inferInstanceAs (Decidable (x ∉ keptNames ∧ x ∉ others))
  | .call (.quoted n) extras => inferInstanceAs (Decidable ((extras.map Prod.fst).Nodup ∧
      (∀ k ∈ extras, k.1 ∉ ["name", "partial", "partials", "view"] ∧ k.2.Plain others) ∧
      (book.lookup n).isSome = true))
  | .call (.named _) _ => inferInstanceAs (Decidable False)

theorem Operand.Plain.fits {o : Operand} (h : o.Plain others) (σ : Bindings) :
    o.Fits others σ := by
  cases o with
  | quoted s => trivial
  | named x => exact ⟨h.1, fun hx => absurd hx h.2⟩

/-- A plain piece fits if the partial that it calls does. -/
theorem Piece.Plain.fits {p : Piece} (h : p.Plain book others)
    {inside : String → Bindings → Prop}
    (hinside : ∀ n extras, p = .call (.quoted n) extras → (book.lookup n).isSome →
      inside n (σ.extended extras)) : p.Fits others inside σ := by
  cases p with
  | literal s => trivial
  | output x => exact ⟨h.1, fun hx => absurd hx h.2⟩
  | call name extras =>
    cases name with
    | quoted n =>
      obtain ⟨hnodup, hextras, hn⟩ := h
      exact ⟨⟨hnodup, fun k hk => ⟨(hextras k hk).1, (hextras k hk).2.fits σ⟩⟩, trivial,
        .plain n, rfl, hinside n extras rfl hn⟩
    | named x => exact h.elim

section Acyclic

variable (hbook : ∀ n ps, book.lookup n = some ps → ∀ p ∈ ps, p.Plain book others)
  (hacyclic : ∀ n, ¬Relation.TransGen book.Invokes n n)

include hacyclic in
/-- A partial that is called below a chain of calls is none of the chain, which is therefore
shorter than the book. -/
theorem Book.lt_length_of_call {chain : List String} (hnodup : chain.Nodup)
    (hchain : ∀ n ∈ chain, n ∈ book.map Prod.fst) {m : String} (hm : (book.lookup m).isSome)
    (hcalls : ∀ n ∈ chain, Relation.TransGen book.Invokes n m) :
    (m :: chain).Nodup ∧ (∀ n ∈ m :: chain, n ∈ book.map Prod.fst) ∧
      chain.length < book.length := by
  have hnew : m ∉ chain := fun hmem => hacyclic m (hcalls m hmem)
  have hnodup' : (m :: chain).Nodup := List.nodup_cons.2 ⟨hnew, hnodup⟩
  have hchain' : ∀ n ∈ m :: chain, n ∈ book.map Prod.fst := by
    refine List.forall_mem_cons.2 ⟨?_, hchain⟩
    obtain ⟨ps, hps⟩ := Option.isSome_iff_exists.1 hm
    exact List.mem_map.2 ⟨(m, ps), mem_of_lookup hps, rfl⟩
  have hlength := (hnodup'.subperm hchain').length_le
  rw [List.length_map] at hlength
  exact ⟨hnodup', hchain', hlength⟩

include hbook hacyclic in
/-- Below a chain of calls there is room for as many calls as there are further partials. -/
theorem Book.fits_below {chain : List String} {depth : Nat} (hnodup : chain.Nodup)
    (hchain : ∀ n ∈ chain, n ∈ book.map Prod.fst) (hdepth : book.length ≤ chain.length + depth)
    {ps : List Piece} (hps : ∀ p ∈ ps, p.Plain book others)
    (hcalls : ∀ m extras, .call (.quoted m) extras ∈ ps →
      ∀ n ∈ chain, Relation.TransGen book.Invokes n m) (σ : Bindings) :
    book.Fits others depth σ ps := by
  induction depth generalizing chain ps σ with
  | zero =>
    intro p hp
    refine (hps p hp).fits fun m extras hcall hm => ?_
    subst hcall
    obtain ⟨-, -, hlt⟩ := lt_length_of_call hacyclic hnodup hchain hm (hcalls m extras hp)
    omega
  | succ depth ih =>
    intro p hp
    refine (hps p hp).fits fun m extras hcall hm => ?_
    subst hcall
    have hreach := hcalls m extras hp
    obtain ⟨hnodup', hchain', -⟩ := lt_length_of_call hacyclic hnodup hchain hm hreach
    obtain ⟨inner, hinner⟩ := Option.isSome_iff_exists.1 hm
    refine ⟨inner, hinner, ih hnodup' hchain' ?_ (hbook m inner hinner) ?_ _⟩
    · rw [List.length_cons]
      omega
    · intro k more hk
      have hstep : book.Invokes m k := ⟨inner, more, hinner, hk⟩
      exact List.forall_mem_cons.2 ⟨.single hstep, fun n hn => (hreach n hn).tail hstep⟩

include hbook hacyclic in
/-- **Partials without cycles have an expansion.** Their calls are nested no deeper than there are
partials. -/
theorem Book.fits_of_acyclic {ps : List Piece} (hps : ∀ p ∈ ps, p.Plain book others)
    (σ : Bindings) : book.Fits others book.length σ ps :=
  fits_below hbook hacyclic List.nodup_nil (fun _ hn => nomatch hn) (by simp) hps
    (fun _ _ _ _ hn => nomatch hn) σ

end Acyclic

end CachedViews.Template
