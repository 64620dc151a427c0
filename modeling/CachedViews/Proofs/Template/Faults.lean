import CachedViews.Template.Environment
import CachedViews.Template.Render

/-
# What templates fail with

Calling templates may go wrong in many ways, but none of them has to do with files: no fault tells
of a view, of a file that could not be read or of a directory that could not be listed
(`TellsNoView`). That is so for every operation on values and, by induction on the syntax, for
every expression and every node, if it is so for what they call; so by induction on the bound it is
so however deep templates call each other (`Template.tellsNoView_callTemplate`). Of the functions
that came from outside it is known (`Template.Runtime.tellsNoView`).

Key theorems: `Template.tellsNoView_eval`, `Template.tellsNoView_runNodes`,
`Template.tellsNoView_callTemplate`, `tellsNoView_compile`.
-/

namespace CachedViews

theorem tellsNoView_filterM {α : Type} {keep : α → Except Fault Bool}
    (h : ∀ a, TellsNoView (keep a)) (as : List α) : TellsNoView (as.filterM keep) := by
  have haux : ∀ kept, TellsNoView (as.filterAuxM keep kept) := by
    induction as with
    | nil => exact fun kept => tellsNoView_ok _
    | cons a as ih => exact fun kept => (h a).bind fun _ => ih _
  exact (haux []).bind fun _ => tellsNoView_ok _

namespace Template

variable {α : Type}

/-! ### Operations on values -/

theorem tellsNoView_refusal (operation : String) (operands : List Value) (f : TypeFault) :
    TellsNoView (.error (refusal operation operands f) : Except Fault α) := by
  unfold refusal
  split <;> exact fun _ h => nomatch h

theorem tellsNoView_findAttribute (v : Value) (name : String) :
    TellsNoView (findAttribute v name) := by
  unfold findAttribute
  repeat' split
  all_goals exact fun _ h => nomatch h

theorem tellsNoView_attributeOf (v : Value) (name : String) : TellsNoView (attributeOf v name) := by
  refine (tellsNoView_findAttribute v name).bind fun found => ?_
  split <;> exact fun _ h => nomatch h

theorem tellsNoView_itemOf (v key : Value) : TellsNoView (itemOf v key) := by
  unfold itemOf
  repeat' split
  all_goals first
    | exact (tellsNoView_findAttribute _ _).bind fun _ => tellsNoView_ok _
    | exact fun _ h => nomatch h

theorem tellsNoView_sliceBound (b : Option Value) : TellsNoView (sliceBound b) := by
  unfold sliceBound
  repeat' split
  all_goals exact fun _ h => nomatch h

theorem tellsNoView_sliceOf (v : Value) (start stop step : Option Value) :
    TellsNoView (sliceOf v start stop step) := by
  refine (tellsNoView_sliceBound start).bind fun start => (tellsNoView_sliceBound stop).bind
    fun stop => (tellsNoView_sliceBound step).bind fun step => ?_
  dsimp only
  repeat' split
  all_goals exact fun _ h => nomatch h

theorem tellsNoView_integerResult (n : Int) : TellsNoView (integerResult n) := by
  rcases Decidable.em (n.natAbs < Nat.pow 10 4300) with h | h
  · rw [integerResult, if_pos h]
    exact tellsNoView_ok _
  · rw [integerResult, if_neg h]
    exact fun _ h => nomatch h

theorem tellsNoView_onFloats (op : Arithmetic) (x y : Float) : TellsNoView (onFloats op x y) := by
  unfold onFloats
  dsimp only
  repeat' split
  all_goals exact fun _ h => nomatch h

theorem tellsNoView_onIntegers (op : Arithmetic) (m n : Int) :
    TellsNoView (onIntegers op m n) := by
  cases op with
  | add | sub | mul => exact tellsNoView_integerResult _
  | floorDiv | mod =>
    unfold onIntegers
    dsimp only
    split
    · exact fun _ h => nomatch h
    · exact tellsNoView_integerResult _
  | div =>
    unfold onIntegers
    dsimp only
    repeat' split
    all_goals exact fun _ h => nomatch h
  | pow =>
    unfold onIntegers
    dsimp only
    split
    · exact tellsNoView_onFloats _ _ _
    · split
      · exact tellsNoView_integerResult _
      · exact fun _ h => nomatch h

theorem tellsNoView_onNumbers (op : Arithmetic) (a b : Value.Number) :
    TellsNoView (onNumbers op a b) := by
  unfold onNumbers
  dsimp only
  split
  · exact tellsNoView_onIntegers _ _ _
  · refine TellsNoView.bind ?_ fun _ => tellsNoView_onFloats _ _ _
    split <;> exact fun _ h => nomatch h
  · refine TellsNoView.bind ?_ fun _ => tellsNoView_onFloats _ _ _
    split <;> exact fun _ h => nomatch h
  · exact tellsNoView_onFloats _ _ _

theorem tellsNoView_addValues (a b : Value) : TellsNoView (addValues a b) := by
  unfold addValues
  split
  all_goals first
    | exact tellsNoView_refusal _ _ _
    | exact fun _ h => nomatch h

theorem tellsNoView_multiplyValues (a b : Value) : TellsNoView (multiplyValues a b) := by
  unfold multiplyValues
  repeat' split
  all_goals first
    | exact tellsNoView_refusal _ _ _
    | exact fun _ h => nomatch h

theorem tellsNoView_arithmetic (op : Arithmetic) (a b : Value) :
    TellsNoView (arithmetic op a b) := by
  unfold arithmetic
  repeat' split
  all_goals first
    | exact tellsNoView_onNumbers _ _ _
    | exact tellsNoView_addValues _ _
    | exact tellsNoView_multiplyValues _ _
    | exact tellsNoView_refusal _ _ _
    | exact fun _ h => nomatch h

theorem tellsNoView_negated (v : Value) : TellsNoView (negated v) := by
  unfold negated
  repeat' split
  all_goals first
    | exact tellsNoView_refusal _ _ _
    | exact fun _ h => nomatch h

theorem tellsNoView_unchanged (v : Value) : TellsNoView (unchanged v) := by
  unfold unchanged
  repeat' split
  all_goals first
    | exact tellsNoView_refusal _ _ _
    | exact fun _ h => nomatch h

theorem tellsNoView_ordered (op : Comparison) (a b : Value) : TellsNoView (ordered op a b) := by
  unfold ordered
  repeat' split
  all_goals first
    | exact tellsNoView_refusal _ _ _
    | exact fun _ h => nomatch h

theorem tellsNoView_isIn (a b : Value) : TellsNoView (isIn a b) := by
  unfold isIn
  repeat' split
  all_goals first
    | exact tellsNoView_refusal _ _ _
    | exact fun _ h => nomatch h

theorem tellsNoView_compare (op : Comparison) (a b : Value) : TellsNoView (compare op a b) := by
  unfold compare
  split
  · exact tellsNoView_ok _
  · exact tellsNoView_ok _
  · exact tellsNoView_isIn _ _
  · exact (tellsNoView_isIn _ _).map _
  · exact tellsNoView_ordered _ _ _

theorem tellsNoView_iterable (v : Value) : TellsNoView (match itemsOf v with
    | .ok _ => .ok true
    | .error (.type _) => .ok false
    | .error f => .error f) := by
  have hitems := tellsNoView_itemsOf v
  split
  · exact tellsNoView_ok _
  · exact tellsNoView_ok _
  · rename_i f hf
    exact fun g hg => hitems g (hf.trans (congrArg Except.error (Except.error.inj hg)))

theorem tellsNoView_passesTest (name : String) (v arg : Value) :
    TellsNoView (passesTest name v arg) := by
  have hrest : ∀ k : Int, TellsNoView (do
      let r ← arithmetic .mod v (.int 2)
      return Value.same r (.int k)) :=
    fun k => (tellsNoView_arithmetic _ _ _).bind fun _ => tellsNoView_ok _
  unfold passesTest
  dsimp only
  split
  all_goals first
    | exact hrest _
    | exact tellsNoView_iterable v
    | exact tellsNoView_isIn _ _
    | exact tellsNoView_ordered _ _ _
    | exact fun _ h => nomatch h

theorem tellsNoView_testValue (name : String) (v : Value) (args : List Value) :
    TellsNoView (testValue name v args) := by
  unfold testValue
  repeat' split
  all_goals first
    | exact tellsNoView_passesTest _ _ _
    | exact fun _ h => nomatch h

theorem tellsNoView_lengthOf (v : Value) : TellsNoView (lengthOf v) := by
  unfold lengthOf
  split
  all_goals first
    | exact tellsNoView_refusal _ _ _
    | exact fun _ h => nomatch h

theorem tellsNoView_asPath (v : Value) : TellsNoView v.asPath := by
  unfold Value.asPath
  split <;> exact fun _ h => nomatch h

theorem tellsNoView_pathPart (part : String → String) (v : Value) :
    TellsNoView (pathPart part v) := by
  unfold pathPart
  split
  · split
    · exact tellsNoView_ok _
    · exact fun _ h => nomatch h
    · exact (tellsNoView_asPath _).bind fun _ => tellsNoView_ok _
  · exact tellsNoView_ok _

theorem tellsNoView_itemsUnder (key : Value) (items : List Value) :
    TellsNoView (itemsUnder key items) := by
  unfold itemsUnder
  repeat' split
  · exact tellsNoView_ok _
  · exact fun _ h => nomatch h
  · exact tellsNoView_mapM (fun _ => tellsNoView_itemOf _ _) items

theorem tellsNoView_followedFilter (escapes : Bool) (name : String) (v : Value)
    (argument : Nat → String → Value → Value) :
    TellsNoView (followedFilter escapes name v argument) := by
  unfold followedFilter
  dsimp only
  split
  · exact tellsNoView_ok _
  · exact tellsNoView_ok _
  · exact ((tellsNoView_lengthOf v).bind fun _ => tellsNoView_ok _).map _
  · exact ((tellsNoView_lengthOf v).bind fun _ => tellsNoView_ok _).map _
  · split <;> exact tellsNoView_ok _
  · split <;> exact tellsNoView_ok _
  · exact (tellsNoView_itemsOf v).bind fun items => (tellsNoView_itemsUnder _ _).bind fun _ =>
      tellsNoView_ok _
  · exact tellsNoView_ok _
  · exact tellsNoView_ok _
  · exact tellsNoView_ok _
  · split
    · exact tellsNoView_ok _
    · rename_i fault _
      cases fault <;> exact fun _ h => nomatch h
  · split <;> exact fun _ h => nomatch h
  · exact tellsNoView_pathPart _ _
  · exact tellsNoView_pathPart _ _
  · exact fun _ h => nomatch h

theorem tellsNoView_applyFilter (escapes : Bool) (name : String) (v : Value) (args : List Value)
    (named : List (String × Value)) : TellsNoView (applyFilter escapes name v args named) := by
  unfold applyFilter
  dsimp only
  repeat' split
  all_goals first
    | exact tellsNoView_followedFilter _ _ _ _
    | exact fun _ h => nomatch h

/-! ### Evaluation -/

/-- Whatever is called, it fails with no fault of a view. -/
def CallsTellNoView (call : Calls) : Prop := ∀ f args named, TellsNoView (call f args named)

section Running

variable {call : Calls}

mutual

/-- **An expression fails with no fault of a view**, if nothing does that it calls. -/
theorem tellsNoView_eval (hcall : CallsTellNoView call) (env : Env) :
    (e : Expr) → TellsNoView (eval call env e)
  | .constant c => by
    rw [eval]
    exact tellsNoView_ok _
  | .name n => by
    rw [eval]
    exact tellsNoView_ok _
  | .list items => by
    rw [eval]
    exact (tellsNoView_evalAll hcall env items).map _
  | .tuple items => by
    rw [eval]
    exact (tellsNoView_evalAll hcall env items).map _
  | .dict entries => by
    rw [eval]
    refine (tellsNoView_evalEntries hcall env entries).bind fun es => ?_
    split
    · exact fun _ h => nomatch h
    · exact tellsNoView_ok _
  | .attribute e name => by
    rw [eval]
    exact (tellsNoView_eval hcall env e).bind fun _ => tellsNoView_attributeOf _ _
  | .item e key => by
    rw [eval]
    exact (tellsNoView_eval hcall env e).bind fun _ =>
      (tellsNoView_eval hcall env key).bind fun _ => tellsNoView_itemOf _ _
  | .slice e start stop step => by
    rw [eval]
    exact (tellsNoView_eval hcall env e).bind fun _ =>
      (tellsNoView_evalOptional hcall env start).bind fun _ =>
        (tellsNoView_evalOptional hcall env stop).bind fun _ =>
          (tellsNoView_evalOptional hcall env step).bind fun _ => tellsNoView_sliceOf _ _ _ _
  | .call f args named => by
    rw [eval]
    exact (tellsNoView_eval hcall env f).bind fun _ =>
      (tellsNoView_evalAll hcall env args).bind fun _ =>
        (tellsNoView_evalNamed hcall env named).bind fun _ => hcall _ _ _
  | .filter e _ name args named => by
    rw [eval]
    exact (tellsNoView_eval hcall env e).bind fun _ =>
      (tellsNoView_evalAll hcall env args).bind fun _ =>
        (tellsNoView_evalNamed hcall env named).bind fun _ => tellsNoView_applyFilter _ _ _ _ _
  | .test e _ name args => by
    rw [eval]
    exact (tellsNoView_eval hcall env e).bind fun _ =>
      (tellsNoView_evalAll hcall env args).bind fun _ =>
        (tellsNoView_testValue _ _ _).bind fun _ => tellsNoView_ok _
  | .negative e => by
    rw [eval]
    exact (tellsNoView_eval hcall env e).bind fun _ => tellsNoView_negated _
  | .positive e => by
    rw [eval]
    exact (tellsNoView_eval hcall env e).bind fun _ => tellsNoView_unchanged _
  | .not e => by
    rw [eval]
    exact (tellsNoView_eval hcall env e).bind fun _ => tellsNoView_ok _
  | .arithmetic op a b => by
    rw [eval]
    exact (tellsNoView_eval hcall env a).bind fun _ =>
      (tellsNoView_eval hcall env b).bind fun _ => tellsNoView_arithmetic _ _ _
  | .concat items => by
    rw [eval]
    exact (tellsNoView_evalAll hcall env items).bind fun _ => tellsNoView_ok _
  | .compare first rest => by
    rw [eval]
    exact (tellsNoView_eval hcall env first).bind fun v => tellsNoView_evalCompared hcall env v rest
  | .and a b => by
    rw [eval]
    refine (tellsNoView_eval hcall env a).bind fun x => ?_
    split
    · exact tellsNoView_eval hcall env b
    · exact tellsNoView_ok _
  | .or a b => by
    rw [eval]
    refine (tellsNoView_eval hcall env a).bind fun x => ?_
    split
    · exact tellsNoView_ok _
    · exact tellsNoView_eval hcall env b
  | .choose line condition yes no => by
    rw [eval]
    refine (tellsNoView_eval hcall env condition).bind fun x => ?_
    split
    · exact tellsNoView_eval hcall env yes
    · exact (tellsNoView_evalOptional hcall env no).bind fun _ => tellsNoView_ok _

theorem tellsNoView_evalAll (hcall : CallsTellNoView call) (env : Env) :
    (es : List Expr) → TellsNoView (evalAll call env es)
  | [] => by
    rw [evalAll]
    exact tellsNoView_ok _
  | e :: es => by
    rw [evalAll]
    exact (tellsNoView_eval hcall env e).bind fun _ =>
      (tellsNoView_evalAll hcall env es).bind fun _ => tellsNoView_ok _

theorem tellsNoView_evalEntries (hcall : CallsTellNoView call) (env : Env) :
    (es : List (Expr × Expr)) → TellsNoView (evalEntries call env es)
  | [] => by
    rw [evalEntries]
    exact tellsNoView_ok _
  | (k, e) :: es => by
    rw [evalEntries]
    exact (tellsNoView_eval hcall env k).bind fun _ => (tellsNoView_eval hcall env e).bind fun _ =>
      (tellsNoView_evalEntries hcall env es).bind fun _ => tellsNoView_ok _

theorem tellsNoView_evalNamed (hcall : CallsTellNoView call) (env : Env) :
    (es : List (String × Expr)) → TellsNoView (evalNamed call env es)
  | [] => by
    rw [evalNamed]
    exact tellsNoView_ok _
  | (n, e) :: es => by
    rw [evalNamed]
    exact (tellsNoView_eval hcall env e).bind fun _ =>
      (tellsNoView_evalNamed hcall env es).bind fun _ => tellsNoView_ok _

theorem tellsNoView_evalOptional (hcall : CallsTellNoView call) (env : Env) :
    (e : Option Expr) → TellsNoView (evalOptional call env e)
  | none => by
    rw [evalOptional]
    exact tellsNoView_ok _
  | some e => by
    rw [evalOptional]
    exact (tellsNoView_eval hcall env e).map _

theorem tellsNoView_evalCompared (hcall : CallsTellNoView call) (env : Env) (first : Value) :
    (rest : List (Comparison × Expr)) → TellsNoView (evalCompared call env first rest)
  | [] => by
    rw [evalCompared]
    exact tellsNoView_ok _
  | (op, e) :: rest => by
    rw [evalCompared]
    refine (tellsNoView_eval hcall env e).bind fun v =>
      (tellsNoView_compare op first v).bind fun x => ?_
    split
    · split
      · exact tellsNoView_ok _
      · exact tellsNoView_evalCompared hcall env v rest
    · exact tellsNoView_ok _

end

theorem tellsNoView_evalChanging (hcall : CallsTellNoView call) (env : Env) (e : Expr) :
    TellsNoView (evalChanging call env e) := by
  have heval : TellsNoView (do return (← eval call env e, env)) :=
    (tellsNoView_eval hcall env e).bind fun _ => tellsNoView_ok _
  unfold evalChanging
  split
  · exact heval
  · split
    · refine (tellsNoView_eval hcall env _).bind fun v => ?_
      split
      · exact tellsNoView_ok _
      · exact fun _ h => nomatch h
    · exact heval

/-! ### Nodes -/

theorem tellsNoView_checkTarget (target : Target) : TellsNoView (checkTarget target) := by
  unfold checkTarget
  split <;> exact fun _ h => nomatch h

theorem tellsNoView_assignTo (env : Env) (target : Target) (v : Value) :
    TellsNoView (assignTo env target v) := by
  unfold assignTo
  repeat' split
  all_goals first
    | exact tellsNoView_refusal _ _ _
    | exact fun _ h => nomatch h

theorem tellsNoView_passing (hcall : CallsTellNoView call) (env : Env) (target : Target)
    (condition : Option Expr) (items : List Value) :
    TellsNoView (passing call env target condition items) := by
  unfold passing
  split
  · exact tellsNoView_ok _
  · exact tellsNoView_filterM (fun item => (tellsNoView_assignTo _ _ _).bind fun env =>
      (tellsNoView_eval hcall env _).bind fun _ => tellsNoView_ok _) items

/-- If no round of a loop fails so, neither does the loop. -/
theorem tellsNoView_rounds {round : Env → Value → Nat → Except Fault Progress}
    (hround : ∀ env item index, TellsNoView (round env item index)) (items : List Value)
    (index : Nat) (env : Env) : TellsNoView (rounds round items index env) := by
  induction items generalizing index env with
  | nil => exact tellsNoView_ok _
  | cons item items ih =>
    unfold rounds
    refine (hround _ _ _).bind fun p => ?_
    split
    · exact tellsNoView_ok _
    · exact (ih _ _).bind fun _ => tellsNoView_ok _

mutual

/-- **A node fails with no fault of a view**, if nothing does that it calls. -/
theorem tellsNoView_runNode (hcall : CallsTellNoView call) (env : Env) :
    (n : Node) → TellsNoView (runNode call env n)
  | .text s => by
    rw [runNode]
    exact tellsNoView_ok _
  | .leave => by
    rw [runNode]
    exact tellsNoView_ok _
  | .next => by
    rw [runNode]
    exact tellsNoView_ok _
  | .print e => by
    rw [runNode]
    exact (tellsNoView_evalChanging hcall env e).bind fun _ => tellsNoView_ok _
  | .run e => by
    rw [runNode]
    exact (tellsNoView_evalChanging hcall env e).bind fun _ => tellsNoView_ok _
  | .assign target e => by
    rw [runNode]
    exact (tellsNoView_checkTarget target).bind fun _ => (tellsNoView_eval hcall env e).bind
      fun v => (tellsNoView_assignTo env target v).bind fun _ => tellsNoView_ok _
  | .branch condition yes no => by
    rw [runNode]
    refine (tellsNoView_eval hcall env condition).bind fun v => ?_
    split
    · exact tellsNoView_runNodes hcall env yes
    · exact tellsNoView_runNodes hcall env no
  | .capture target body => by
    rw [runNode]
    refine (tellsNoView_runNodes hcall env.inner body).bind fun p => ?_
    split
    · exact (tellsNoView_assignTo _ _ _).bind fun _ => tellsNoView_ok _
    · exact tellsNoView_ok _
  | .loop target items condition body no => by
    rw [runNode]
    refine (tellsNoView_eval hcall env items).bind fun v => (tellsNoView_itemsOf v).bind
      fun items => (tellsNoView_passing hcall env target condition items).bind fun items => ?_
    split
    · exact (tellsNoView_runNodes hcall env.inner no).bind fun _ => tellsNoView_ok _
    · refine TellsNoView.bind (tellsNoView_rounds (fun env item index => ?_) items 0 _)
        fun _ => tellsNoView_ok _
      exact (tellsNoView_assignTo _ _ _).bind fun env' => tellsNoView_runNodes hcall env' body

/-- **Nodes fail with no fault of a view**, if nothing does that they call. -/
theorem tellsNoView_runNodes (hcall : CallsTellNoView call) (env : Env) :
    (ns : List Node) → TellsNoView (runNodes call env ns)
  | [] => by
    rw [runNodes]
    exact tellsNoView_ok _
  | n :: ns => by
    rw [runNodes]
    refine (tellsNoView_runNode hcall env n).bind fun p => ?_
    split
    · exact (tellsNoView_runNodes hcall p.env ns).bind fun _ => tellsNoView_ok _
    · exact tellsNoView_ok _

end

end Running

/-! ### Calls -/

theorem tellsNoView_callMethod (v : Value) (name : String) (args : List Value)
    (named : List (String × Value)) : TellsNoView (callMethod v name args named) := by
  unfold callMethod
  repeat' split
  all_goals exact fun _ h => nomatch h

theorem tellsNoView_callBuiltin (name : String) (args : List Value)
    (named : List (String × Value)) : TellsNoView (callBuiltin name args named) := by
  unfold callBuiltin
  dsimp only
  split <;> exact fun _ h => nomatch h

theorem tellsNoView_checkMeta (model : List (String × Value)) : TellsNoView (checkMeta model) := by
  unfold checkMeta
  split <;> exact fun _ h => nomatch h

theorem tellsNoView_modelOf (v : Value) (extra : List (String × Value)) :
    TellsNoView (modelOf v extra) := by
  unfold modelOf
  dsimp only
  split
  · exact tellsNoView_ok _
  · split
    · exact tellsNoView_ok _
    · exact (tellsNoView_checkMeta _).bind fun _ _ h => nomatch h
  · exact tellsNoView_refusal _ _ _

/-- No page fails with a fault of a view. -/
def PagesTellNoView (enter : Pages) : Prop := ∀ page model, TellsNoView (enter page model)

variable {rt : Runtime}

theorem tellsNoView_callPlain {enter : Pages} (henter : PagesTellNoView enter) (f : Value)
    (args : List Value) (named : List (String × Value)) :
    TellsNoView (callPlain rt enter f args named) := by
  unfold callPlain
  split
  · exact fun _ h => nomatch h
  · exact rt.tellsNoView _ _ _ _
  · dsimp only
    split
    · exact fun _ h => nomatch h
    · split
      · exact (tellsNoView_modelOf _ _).bind fun _ => henter _ _
      · split
        · exact fun _ h => nomatch h
        · exact (tellsNoView_modelOf _ _).bind fun _ => henter _ _
      · exact fun _ h => nomatch h
  · exact tellsNoView_callBuiltin _ _ _
  · exact tellsNoView_callMethod _ _ _ _
  · exact tellsNoView_refusal _ _ _

theorem tellsNoView_partialArguments (args : List Value) (named : List (String × Value)) :
    TellsNoView (partialArguments args named) := by
  unfold partialArguments
  dsimp only
  repeat' split
  all_goals exact fun _ h => nomatch h

theorem tellsNoView_partialOf (partials name : Value) : TellsNoView (partialOf partials name) := by
  unfold partialOf
  repeat' split
  all_goals exact fun _ h => nomatch h

theorem tellsNoView_callValue {enter : Pages} (henter : PagesTellNoView enter) :
    CallsTellNoView (callValue rt enter) := by
  intro f args named
  unfold callValue
  split
  · exact (tellsNoView_partialArguments _ _).bind fun _ =>
      (tellsNoView_partialOf _ _).bind fun _ => tellsNoView_callPlain henter _ _ _
  · exact tellsNoView_callPlain henter _ _ _

/-- However deep templates call each other, no page fails with a fault of a view. -/
theorem tellsNoView_renderPage (depth : Nat) : PagesTellNoView (renderPage rt depth) := by
  induction depth with
  | zero => exact fun page model => fun _ h => nomatch h
  | succ depth ih =>
    intro page model
    unfold renderPage
    exact (tellsNoView_checkMeta model).bind fun _ =>
      (tellsNoView_runNodes (tellsNoView_callValue ih) _ page.body).bind fun _ =>
        tellsNoView_ok _

/-- **A template knows nothing of views.** -/
theorem tellsNoView_callTemplate (rt : Runtime) (f : Value) (entries : List (Value × Value)) :
    TellsNoView (callTemplate rt f entries) :=
  tellsNoView_callPlain (tellsNoView_renderPage rt.depth) f _ _

end Template

/-- A compiler knows nothing of views. -/
theorem tellsNoView_compile (compiler : Template.Compiler) (options : List (String × Value))
    (file text : String) : TellsNoView (compiler.compile options file text) :=
  compiler.tellsNoView _ _

end CachedViews
