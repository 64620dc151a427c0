import CachedViews.Proofs.Template.Cutting

/-
# How a template is read

The tokens of pieces are read as their nodes, on whatever lines they stand (`run_nodes`). So a
text that is the source of pieces, once its line ends are unified and the last one is dropped, is
read as these pieces under the default options (`reads_source`).

An expression is read down a ladder of operators, from alternatives to powers. What may follow an
operand here, the end of a print, a comma or a closing bracket, ends it on every rung (`Stops`), so
that reading an expression comes down to reading its lowest part (`run_expression`).

Key definitions: `Reads`, `Stops`.
Key theorems: `run_expression`, `run_operand`, `run_call`, `run_nodes`, `reads_source`.
-/

namespace CachedViews.Template

open CachedViews.Text Parse

/-- Under the default options, a text is read as the pieces. -/
def Reads (text : String) (ps : List Piece) : Prop :=
  parseTemplate {} text = .ok (ps.map Piece.node)

variable {t u : Token} {ts r : List Token} {fuel : Nat} {e : Expr}

/-! ### Expressions -/

theorem run_bind_ok {α β : Type} {m : Parse α} {f : α → Parse β} {ts ts' : List Token} {a : α}
    (h : m.run ts = .ok (a, ts')) : (m >>= f).run ts = (f a).run ts' := by
  rw [StateT.run_bind, h]
  rfl

theorem run_advance (h : ∀ f, u.kind ≠ .failure f) :
    advance.run (t :: u :: r) = .ok ((), u :: r) := by
  obtain ⟨l, k⟩ := u
  cases k <;> first | rfl | exact absurd rfl (h _)

/-- What may follow an operand. -/
def ends : List TokenKind := [.endPrint, .op ",", .op ")"]

/-- A token goes on with nothing that was begun. -/
structure Stops (fuel : Nat) (u : Token) (r : List Token) : Prop where
  conditions : ∀ l e, (conditions (fuel + 1) l e).run (u :: r) = .ok (e, u :: r)
  disjunctionRest : ∀ e, (disjunctionRest (fuel + 1) e).run (u :: r) = .ok (e, u :: r)
  conjunctionRest : ∀ e, (conjunctionRest (fuel + 1) e).run (u :: r) = .ok (e, u :: r)
  comparisonRest : (comparisonRest (fuel + 1)).run (u :: r) = .ok ([], u :: r)
  sumRest : ∀ e, (sumRest (fuel + 1) e).run (u :: r) = .ok (e, u :: r)
  concatenationRest : (concatenationRest (fuel + 1)).run (u :: r) = .ok ([], u :: r)
  productRest : ∀ e, (productRest (fuel + 1) e).run (u :: r) = .ok (e, u :: r)
  powerRest : ∀ e, (powerRest (fuel + 1) e).run (u :: r) = .ok (e, u :: r)
  postfixes : ∀ e, (postfixes (fuel + 1) e).run (u :: r) = .ok (e, u :: r)
  filters : ∀ e, (filters (fuel + 1) e).run (u :: r) = .ok (e, u :: r)

theorem stops (hu : u.kind ∈ ends) (fuel : Nat) (r : List Token) : Stops fuel u r := by
  obtain ⟨l, k⟩ := u
  simp only [ends, List.mem_cons, List.not_mem_nil, or_false] at hu
  rcases hu with rfl | rfl | rfl <;> exact
    { conditions := fun _ _ => rfl, disjunctionRest := fun _ => rfl, conjunctionRest := fun _ => rfl
      comparisonRest := rfl, sumRest := fun _ => rfl, concatenationRest := rfl
      productRest := fun _ => rfl, powerRest := fun _ => rfl, postfixes := fun _ => rfl
      filters := fun _ => rfl }

theorem run_skipName {s : String} (h : (t.kind == .name s) = false) :
    (skipName s).run (t :: ts) = .ok (false, t :: ts) := by
  have hat : (atName s).run (t :: ts) = .ok (false, t :: ts) := by
    rw [← h]
    rfl
  exact run_bind_ok hat

theorem run_skipOp {o : String} (h : (t.kind == .op o) = false) :
    (skipOp o).run (t :: ts) = .ok (false, t :: ts) := by
  have hat : (atOp o).run (t :: ts) = .ok (false, t :: ts) := by
    rw [← h]
    rfl
  exact run_bind_ok hat

/-- An expression without operators is a primary one with what follows it. -/
theorem run_expression (hnot : (t.kind == .name "not") = false)
    (hminus : (t.kind == .op "-") = false) (hplus : (t.kind == .op "+") = false)
    (hu : u.kind ∈ ends) {inner : Expr} {ts' : List Token}
    (hprimary : (primary (fuel + 1)).run (t :: ts) = .ok (inner, ts'))
    (hpostfixes : (postfixes (fuel + 1) inner).run ts' = .ok (e, u :: r)) :
    (expression (fuel + 11) true).run (t :: ts) = .ok (e, u :: r) := by
  have hunary : (unary (fuel + 2) true).run (t :: ts) = .ok (e, u :: r) :=
    (run_bind_ok (run_skipOp hminus)).trans ((run_bind_ok (run_skipOp hplus)).trans
      ((run_bind_ok hprimary).trans ((run_bind_ok hpostfixes).trans ((stops hu _ r).filters e))))
  have hpower : (power (fuel + 3)).run (t :: ts) = .ok (e, u :: r) :=
    (run_bind_ok hunary).trans ((stops hu _ r).powerRest e)
  have hproduct : (product (fuel + 4)).run (t :: ts) = .ok (e, u :: r) :=
    (run_bind_ok hpower).trans ((stops hu _ r).productRest e)
  have hconcatenation : (concatenation (fuel + 5)).run (t :: ts) = .ok (e, u :: r) :=
    (run_bind_ok hproduct).trans (run_bind_ok (stops hu _ r).concatenationRest)
  have hsum : (sum (fuel + 6)).run (t :: ts) = .ok (e, u :: r) :=
    (run_bind_ok hconcatenation).trans ((stops hu _ r).sumRest e)
  have hcomparisons : (comparisons (fuel + 7)).run (t :: ts) = .ok (e, u :: r) :=
    (run_bind_ok hsum).trans (run_bind_ok (stops hu _ r).comparisonRest)
  have hnegation : (negation (fuel + 8)).run (t :: ts) = .ok (e, u :: r) :=
    (run_bind_ok (run_skipName hnot)).trans hcomparisons
  have hconjunction : (conjunction (fuel + 9)).run (t :: ts) = .ok (e, u :: r) :=
    (run_bind_ok hnegation).trans ((stops hu _ r).conjunctionRest e)
  have hdisjunction : (disjunction (fuel + 10)).run (t :: ts) = .ok (e, u :: r) :=
    (run_bind_ok hconjunction).trans ((stops hu _ r).disjunctionRest e)
  exact (run_bind_ok hdisjunction).trans ((stops hu _ r).conditions _ e)

/-! ### Operands -/

theorem not_failure_of_mem (hu : u.kind ∈ ends) (f : SyntaxFault) : u.kind ≠ .failure f := by
  intro hf
  rw [hf] at hu
  simp [ends] at hu

theorem primary_name {x : String} (hx : isVariable x = true) {l : Nat}
    (hu : ∀ f, u.kind ≠ .failure f) :
    (primary (fuel + 1)).run (⟨l, .name x⟩ :: u :: r) = .ok (.name x, u :: r) := by
  obtain ⟨htrue, hfalse, hnone⟩ : ¬(x = "true" ∨ x = "True") ∧ ¬(x = "false" ∨ x = "False") ∧
      ¬(x = "none" ∨ x = "None") := by
    simp only [isVariable, reservedWords, Bool.and_eq_true, Bool.not_eq_true',
      List.contains_eq_mem, List.mem_cons, List.not_mem_nil, decide_eq_false_iff_not] at hx
    tauto
  have hstep : (primary (fuel + 1)).run (⟨l, .name x⟩ :: u :: r) = (advance >>= fun _ =>
      if x = "true" ∨ x = "True" then return .constant (.bool true)
      else if x = "false" ∨ x = "False" then return .constant (.bool false)
      else if x = "none" ∨ x = "None" then return .constant .none
      else return .name x).run (⟨l, .name x⟩ :: u :: r) := rfl
  rw [hstep, run_bind_ok (run_advance hu), if_neg htrue, if_neg hfalse, if_neg hnone]
  rfl

theorem primary_text {s : String} {l : Nat} (hu : u.kind ∈ ends) :
    (primary (fuel + 1)).run (⟨l, .text s⟩ :: u :: r) = .ok (.constant (.text s), u :: r) := by
  obtain ⟨l', k⟩ := u
  simp only [ends, List.mem_cons, List.not_mem_nil, or_false] at hu
  cases fuel <;> rcases hu with rfl | rfl | rfl <;> rfl

/-- An operand is read as its expression. -/
theorem run_operand {o : Operand} (ho : o.isSpelled = true) {l : Nat} (hu : u.kind ∈ ends) :
    (expression (fuel + 11) true).run (⟨l, o.kind⟩ :: u :: r) = .ok (o.expr, u :: r) := by
  have hpostfixes := (stops hu fuel r).postfixes
  cases o with
  | quoted s => exact run_expression rfl rfl rfl hu (primary_text hu) (hpostfixes _)
  | named x =>
    have hnot : x ≠ "not" := by
      rintro rfl
      exact absurd ho (by decide)
    have hname : (TokenKind.name x == .name "not") = false :=
      (beq_false_of_ne hnot : (x == "not") = false)
    exact run_expression hname rfl rfl hu (primary_name ho (not_failure_of_mem hu)) (hpostfixes _)

/-! ### Calls -/

theorem exists_token {k : TokenKind} {kinds : List TokenKind}
    (h : ts.map Token.kind = k :: kinds) :
    ∃ l r, ts = ⟨l, k⟩ :: r ∧ r.map Token.kind = kinds := by
  obtain ⟨⟨l, k'⟩, r, rfl, rfl, hr⟩ := List.map_eq_cons_iff.1 h
  exact ⟨l, r, rfl, hr⟩

/-- Behind an operand of a call there is a comma or the bracket that closes it. -/
theorem exists_end {extras : List (String × Operand)} {kinds : List TokenKind}
    (h : ts.map Token.kind = extras.flatMap extraKinds ++ .op ")" :: kinds) :
    ∃ u r, ts = u :: r ∧ u.kind ∈ ends := by
  cases extras with
  | nil =>
    obtain ⟨l, r, rfl, -⟩ := exists_token h
    exact ⟨_, r, rfl, by simp [ends]⟩
  | cons k extras =>
    obtain ⟨l, r, rfl, -⟩ := exists_token h
    exact ⟨_, r, rfl, by simp [ends]⟩

/-- The further variables of a call are read one after the other, up to the bracket that closes
it. -/
theorem run_extras (fuel : Nat) {extras : List (String × Operand)}
    (hextras : ∀ k ∈ extras, k.2.isSpelled = true) {kinds : List TokenKind}
    (hts : ts.map Token.kind = extras.flatMap extraKinds ++ .op ")" :: kinds) (line : Nat)
    (a : Expr) (named : List (String × Expr)) :
    ∃ r, r.map Token.kind = .op ")" :: kinds ∧
      (argumentRest (fuel + extras.length + 12) line [a] named).run ts =
        .ok (([a], named ++ extras.map fun k => (k.1, k.2.expr)), r) := by
  induction extras generalizing ts named with
  | nil =>
    refine ⟨ts, hts, ?_⟩
    obtain ⟨l, r, rfl, -⟩ := exists_token hts
    rw [List.map_nil, List.append_nil]
    rfl
  | cons k extras ih =>
    obtain ⟨x, o⟩ := k
    simp only [List.flatMap_cons, extraKinds, List.cons_append, List.nil_append] at hts
    obtain ⟨l₁, ts₁, rfl, h₁⟩ := exists_token hts
    obtain ⟨l₂, ts₂, rfl, h₂⟩ := exists_token h₁
    obtain ⟨l₃, ts₃, rfl, h₃⟩ := exists_token h₂
    obtain ⟨l₄, ts₄, rfl, h₄⟩ := exists_token h₃
    have hoperand := hextras (x, o) List.mem_cons_self
    obtain ⟨u, r', rfl, hu⟩ := exists_end h₄
    obtain ⟨r, hr, hrun⟩ := ih (fun k hk => hextras k (List.mem_cons_of_mem _ hk)) h₄
      (named ++ [(x, o.expr)])
    refine ⟨r, hr, ?_⟩
    have hstep : (argumentRest (fuel + (extras.length + 1) + 12) line [a] named).run
        (⟨l₁, .op ","⟩ :: ⟨l₂, .name x⟩ :: ⟨l₃, .op "="⟩ :: ⟨l₄, o.kind⟩ :: u :: r') =
        (expression (fuel + extras.length + 12) true >>= fun e =>
          argumentRest (fuel + extras.length + 12) line [a] (named ++ [(x, e)])).run
            (⟨l₄, o.kind⟩ :: u :: r') := by
      cases o <;> rfl
    rw [List.length_cons, hstep, run_bind_ok (run_operand hoperand hu), hrun, List.map_cons,
      List.append_assoc]
    rfl

theorem run_expect {k : TokenKind} {l : Nat} (hk : (k == k) = true)
    (hu : ∀ f, u.kind ≠ .failure f) : (expect k).run (⟨l, k⟩ :: u :: r) = .ok ((), u :: r) := by
  have hstep : (expect k).run (⟨l, k⟩ :: u :: r) =
      (if k == k then advance else unexpected (describe k)).run (⟨l, k⟩ :: u :: r) := rfl
  rw [hstep, if_pos hk, run_advance hu]

/-- The arguments of a call are read up to the bracket that closes it, and past it. -/
theorem run_arguments (fuel : Nat) {name : Operand} {extras : List (String × Operand)}
    (hname : name.isSpelled = true) (hextras : ∀ k ∈ extras, k.2.isSpelled = true)
    (hdistinct : (extras.map Prod.fst).Nodup) {kinds : List TokenKind}
    (hts : ts.map Token.kind = .op "(" :: name.kind ::
      (extras.flatMap extraKinds ++ .op ")" :: .endPrint :: kinds)) :
    ∃ l r, r.map Token.kind = kinds ∧ (arguments (fuel + extras.length + 14)).run ts =
      .ok (([name.expr], extras.map fun k => (k.1, k.2.expr)), ⟨l, .endPrint⟩ :: r) := by
  obtain ⟨l₁, ts₁, rfl, h₁⟩ := exists_token hts
  obtain ⟨l₂, ts₂, rfl, h₂⟩ := exists_token h₁
  obtain ⟨u, ts₃, rfl, hu⟩ := exists_end h₂
  obtain ⟨ts₄, h₄, hrest⟩ := run_extras fuel hextras h₂ l₁ name.expr []
  obtain ⟨l₅, ts₅, rfl, h₅⟩ := exists_token h₄
  obtain ⟨l₆, r, rfl, hr⟩ := exists_token h₅
  refine ⟨l₆, r, hr, ?_⟩
  have hfirst : (argumentRest (fuel + extras.length + 13) l₁ [] []).run
      (⟨l₂, name.kind⟩ :: u :: ts₃) = (expression (fuel + extras.length + 12) true >>= fun e =>
        argumentRest (fuel + extras.length + 12) l₁ [e] []).run (⟨l₂, name.kind⟩ :: u :: ts₃) := by
    obtain ⟨l, k⟩ := u
    simp only [ends, List.mem_cons, List.not_mem_nil, or_false] at hu
    cases name <;> rcases hu with rfl | rfl | rfl <;> rfl
  have hopen : (arguments (fuel + extras.length + 14)).run
      (⟨l₁, .op "("⟩ :: ⟨l₂, name.kind⟩ :: u :: ts₃) =
        (argumentRest (fuel + extras.length + 13) l₁ [] [] >>= fun found =>
          expect (.op ")") >>= fun _ => if (found.2.map Prod.fst).Nodup then pure found
            else giveUp "a named argument that is given twice").run
              (⟨l₂, name.kind⟩ :: u :: ts₃) := by
    cases name <;> rfl
  have hall : (argumentRest (fuel + extras.length + 13) l₁ [] []).run
      (⟨l₂, name.kind⟩ :: u :: ts₃) =
        .ok (([name.expr], extras.map fun k => (k.1, k.2.expr)),
          ⟨l₅, .op ")"⟩ :: ⟨l₆, .endPrint⟩ :: r) := by
    rw [hfirst, run_bind_ok (run_operand hname hu), hrest]
    rfl
  have hclose : (expect (.op ")")).run (⟨l₅, .op ")"⟩ :: ⟨l₆, .endPrint⟩ :: r) =
      .ok ((), ⟨l₆, .endPrint⟩ :: r) := rfl
  have hnames : (extras.map fun k => (k.1, k.2.expr)).map Prod.fst = extras.map Prod.fst := by
    simp
  rw [hopen, run_bind_ok hall, run_bind_ok hclose, if_pos (hnames ▸ hdistinct)]
  rfl

/-- A call of a partial is read as its expression. -/
theorem run_call (fuel : Nat) {name : Operand} {extras : List (String × Operand)}
    (hname : name.isSpelled = true) (hextras : ∀ k ∈ extras, k.2.isSpelled = true)
    (hdistinct : (extras.map Prod.fst).Nodup) {kinds : List TokenKind}
    (hts : ts.map Token.kind = .name "partial" :: .op "(" :: name.kind ::
      (extras.flatMap extraKinds ++ .op ")" :: .endPrint :: kinds)) :
    ∃ l r, r.map Token.kind = kinds ∧
      (expression (fuel + extras.length + 25) true).run ts =
        .ok (.call (.name "partial") [name.expr] (extras.map fun k => (k.1, k.2.expr)),
          ⟨l, .endPrint⟩ :: r) := by
  obtain ⟨l₁, ts₁, rfl, h₁⟩ := exists_token hts
  obtain ⟨l₂, ts₂, rfl, -⟩ := exists_token h₁
  obtain ⟨l, r, hr, harguments⟩ := run_arguments fuel hname hextras hdistinct h₁
  have hstop : Stops (fuel + extras.length + 13) ⟨l, .endPrint⟩ r := stops (by simp [ends]) _ _
  have hpostfixes : (postfixes (fuel + extras.length + 15) (.name "partial")).run
      (⟨l₂, .op "("⟩ :: ts₂) = (arguments (fuel + extras.length + 14) >>= fun found =>
        postfixes (fuel + extras.length + 14) (.call (.name "partial") found.1 found.2)).run
          (⟨l₂, .op "("⟩ :: ts₂) := rfl
  have hcalled := hpostfixes.trans ((run_bind_ok harguments).trans (hstop.postfixes _))
  have hprimary : (primary (fuel + extras.length + 15)).run
      (⟨l₁, .name "partial"⟩ :: ⟨l₂, .op "("⟩ :: ts₂) =
        .ok (.name "partial", ⟨l₂, .op "("⟩ :: ts₂) :=
    primary_name (by decide) fun f hf => by cases hf
  exact ⟨l, r, hr, run_expression rfl rfl rfl (by simp [ends]) hprimary hcalled⟩

/-! ### Nodes -/

/-- What is printed is one expression. -/
theorem run_tuple {x : String} {l l' : Nat}
    (h : (expression fuel true).run (⟨l, .name x⟩ :: ts) = .ok (e, ⟨l', .endPrint⟩ :: r)) :
    (tuple (fuel + 2) false true false).run (⟨l, .name x⟩ :: ts) =
      .ok (e, ⟨l', .endPrint⟩ :: r) := by
  have hitems : (tupleItems (fuel + 1) false true []).run (⟨l, .name x⟩ :: ts) =
      (expression fuel true >>= fun e => atOp "," >>= fun more =>
        if more then tupleItems fuel false true [e] else pure ([e], false)).run
          (⟨l, .name x⟩ :: ts) := rfl
  have hone : (tupleItems (fuel + 1) false true []).run (⟨l, .name x⟩ :: ts) =
      .ok (([e], false), ⟨l', .endPrint⟩ :: r) := hitems.trans (run_bind_ok h)
  exact run_bind_ok hone

/-- A print is read as a node, and what follows as further nodes. -/
theorem run_print {x : String} {l l₁ l₂ : Nat} {at_ : Surroundings} {ns : List Node}
    (hu : ∀ f, u.kind ≠ .failure f)
    (h : (expression fuel true).run (⟨l₁, .name x⟩ :: ts) = .ok (e, ⟨l₂, .endPrint⟩ :: u :: r))
    {r' : List Token} (hrest : (nodes {} (fuel + 2) at_ none).run (u :: r) = .ok (ns, r')) :
    (nodes {} (fuel + 3) at_ none).run (⟨l, .beginPrint⟩ :: ⟨l₁, .name x⟩ :: ts) =
      .ok (.print e :: ns, r') := by
  have hstep : (nodes {} (fuel + 3) at_ none).run (⟨l, .beginPrint⟩ :: ⟨l₁, .name x⟩ :: ts) =
      (tuple (fuel + 2) false true false >>= fun e => expect .endPrint >>= fun _ =>
        (.print e :: ·) <$> nodes {} (fuel + 2) at_ none).run (⟨l₁, .name x⟩ :: ts) := rfl
  rw [hstep, run_bind_ok (run_tuple h), run_bind_ok (run_expect rfl hu), StateT.run_map, hrest]
  rfl

/-- A piece or the end begins with a token that is read. -/
theorem exists_next {ps : List Piece} (hts : ts.map Token.kind = kindsOf ps ++ [.finish]) :
    ∃ u r, ts = u :: r ∧ ∀ f, u.kind ≠ .failure f := by
  cases ps with
  | nil =>
    obtain ⟨l, r, rfl, -⟩ := exists_token hts
    exact ⟨_, r, rfl, fun f hf => by cases hf⟩
  | cons p ps =>
    cases p <;>
    · obtain ⟨l, r, rfl, -⟩ := exists_token hts
      exact ⟨_, r, rfl, fun f hf => by cases hf⟩

theorem length_extraKinds (extras : List (String × Operand)) :
    (extras.flatMap extraKinds).length = 4 * extras.length := by
  induction extras with
  | nil => rfl
  | cons k extras ih =>
    simp only [List.flatMap_cons, List.length_append, ih, extraKinds, List.length_cons,
      List.length_nil]
    omega

/-- The tokens of pieces are read as their nodes. -/
theorem run_nodes (at_ : Surroundings) (fuel : Nat) {ps : List Piece}
    (hps : ∀ p ∈ ps, p.isSpelled = true) (hts : ts.map Token.kind = kindsOf ps ++ [.finish])
    (hfuel : ts.length + 39 < fuel) :
    ∃ r, (nodes {} fuel at_ none).run ts = .ok (ps.map Piece.node, r) := by
  induction ps generalizing ts fuel with
  | nil =>
    obtain ⟨l, r, rfl, -⟩ := exists_token hts
    obtain ⟨fuel, rfl⟩ := Nat.exists_eq_succ_of_ne_zero (Nat.ne_zero_of_lt hfuel)
    exact ⟨_, rfl⟩
  | cons p ps ih =>
    have hp := hps p List.mem_cons_self
    have hrest := fun fuel {ts : List Token} => @ih ts fuel fun q hq =>
      hps q (List.mem_cons_of_mem _ hq)
    cases p with
    | literal s =>
      obtain ⟨l, ts₁, rfl, h₁⟩ := exists_token hts
      obtain ⟨u, ts₂, rfl, hu⟩ := exists_next h₁
      obtain ⟨fuel, rfl⟩ := Nat.exists_eq_succ_of_ne_zero (Nat.ne_zero_of_lt hfuel)
      simp only [List.length_cons] at hfuel
      obtain ⟨r, hr⟩ := hrest fuel h₁ (by simp only [List.length_cons]; omega)
      refine ⟨r, ?_⟩
      have hstep : (nodes {} (fuel + 1) at_ none).run (⟨l, .data s⟩ :: u :: ts₂) =
          (advance >>= fun _ => (.text s :: ·) <$> nodes {} fuel at_ none).run
            (⟨l, .data s⟩ :: u :: ts₂) := rfl
      rw [hstep, run_bind_ok (run_advance hu), StateT.run_map, hr]
      rfl
    | output x =>
      obtain ⟨l, ts₁, rfl, h₁⟩ := exists_token hts
      obtain ⟨l₁, ts₂, rfl, h₂⟩ := exists_token h₁
      obtain ⟨l₂, ts₃, rfl, h₃⟩ := exists_token h₂
      obtain ⟨u, ts₄, rfl, hu⟩ := exists_next h₃
      simp only [List.length_cons] at hfuel
      obtain ⟨fuel, rfl⟩ := Nat.exists_eq_add_of_le' (show 14 ≤ fuel by omega)
      obtain ⟨r, hr⟩ := hrest (fuel + 13) h₃ (by simp only [List.length_cons]; omega)
      have hname : (expression (fuel + 11) true).run
          (⟨l₁, .name x⟩ :: ⟨l₂, .endPrint⟩ :: u :: ts₄) =
            .ok (.name x, ⟨l₂, .endPrint⟩ :: u :: ts₄) :=
        run_operand (o := .named x) hp (by simp [ends])
      exact ⟨r, run_print hu hname hr⟩
    | call name extras =>
      obtain ⟨⟨hname, hextras⟩, hdistinct⟩ : (name.isSpelled = true ∧
          ∀ k ∈ extras, isName k.1.toList = true ∧ k.2.isSpelled = true) ∧
            (extras.map Prod.fst).Nodup := by
        simpa [Piece.isSpelled] using hp
      have hkinds : ts.map Token.kind = .beginPrint :: .name "partial" :: .op "(" :: name.kind ::
          (extras.flatMap extraKinds ++ .op ")" :: .endPrint :: (kindsOf ps ++ [.finish])) := by
        simpa [kindsOf, Piece.kinds] using hts
      have hlength := congrArg List.length hkinds
      simp only [List.length_map, List.length_cons, List.length_append, length_extraKinds]
        at hlength
      obtain ⟨l, ts₁, rfl, h₁⟩ := exists_token hkinds
      obtain ⟨fuel, rfl⟩ := Nat.exists_eq_add_of_le' (show extras.length + 28 ≤ fuel by omega)
      obtain ⟨l₂, ts₂, h₂, hcall⟩ := run_call fuel hname (fun k hk => (hextras k hk).2) hdistinct h₁
      obtain ⟨l₁, ts₁, rfl, -⟩ := exists_token h₁
      have hafter := congrArg List.length h₂
      simp only [List.length_map, List.length_append, List.length_cons, List.length_nil] at hafter
      obtain ⟨u, ts₄, rfl, hu⟩ := exists_next h₂
      obtain ⟨r, hr⟩ := hrest (fuel + extras.length + 27) h₂ (by omega)
      exact ⟨r, run_print hu hcall hr⟩

/-- Pieces have no filters and no tests, which might be unknown. -/
theorem unknownInNodes_pieces (ps : List Piece) :
    unknownInNodes false (ps.map Piece.node) = none := by
  have hoperand : ∀ o : Operand, unknownIn o.expr = none := fun o => by
    cases o <;> simp [Operand.expr, unknownIn]
  have hextras : ∀ extras : List (String × Operand),
      unknownInNamed (extras.map fun k => (k.1, k.2.expr)) = none := fun extras => by
    induction extras with
    | nil => simp [unknownInNamed]
    | cons k extras ih => simp [unknownInNamed, hoperand, ih]
  induction ps with
  | nil => simp [unknownInNodes]
  | cons p ps ih =>
    rw [List.map_cons, unknownInNodes, ih]
    cases p <;> simp [Piece.node, unknownInNode, unknownIn, unknownInAll, hoperand, hextras]

/-- **The source of pieces is read as these pieces.** -/
theorem reads_source {text : String} {ps : List Piece} (hps : isSpelled ps = true)
    (htext : normalized {} text.toList = sourceOf ps) : Reads text ps := by
  have hkinds : (tokens {} text.toList).map Token.kind = kindsOf ps ++ [.finish] := by
    unfold tokens
    rw [htext]
    refine cut_source hps rfl (absurd rfl) _ _ _ _ _ _ ?_
    rw [List.nil_append]
    omega
  obtain ⟨u, ts, hts, hu⟩ := exists_next hkinds
  obtain ⟨r, hr⟩ := run_nodes {} (40 * ((tokens {} text.toList).length + 1)) (all_isSpelled hps)
    hkinds (by rw [hts, List.length_cons]; omega)
  unfold Reads parseTemplate
  dsimp only
  split
  · rename_i f ts' hfailure
    rw [hts] at hfailure
    obtain ⟨rfl, -⟩ := List.cons.inj hfailure
    exact absurd rfl (hu f)
  · rw [hr]
    simp only [Bind.bind, Except.bind, unknownInNodes_pieces]
    rfl

end CachedViews.Template
