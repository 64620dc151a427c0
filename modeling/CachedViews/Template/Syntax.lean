/-
# Syntax of templates

A template is a list of nodes: text that stands for itself, expressions whose
value is printed, and statements. Expressions are names, literals, the ways into
a value (attribute, item, slice, call), filters and tests, and the usual
operators.

Key definitions: `Constant`, `Expr`, `Node`.
-/

namespace CachedViews.Template

/-- A literal. -/
inductive Constant where
  | none
  | bool (b : Bool)
  | int (n : Int)
  | float (x : Float)
  | text (s : String)
  deriving Repr, BEq, Inhabited

/-- The arithmetic operators. -/
inductive Arithmetic where
  | add | sub | mul | div | floorDiv | mod | pow
  deriving Repr, BEq, DecidableEq

/-- The comparisons. -/
inductive Comparison where
  | eq | ne | lt | le | gt | ge | isIn | notIn
  deriving Repr, BEq, DecidableEq

/-- An expression. The named arguments of calls, filters and tests keep their
order; filters, tests and choices know the line that they stand on. -/
inductive Expr where
  | constant (c : Constant)
  | name (n : String)
  | list (items : List Expr)
  | tuple (items : List Expr)
  | dict (entries : List (Expr × Expr))
  | attribute (e : Expr) (name : String)
  | item (e key : Expr)
  | slice (e : Expr) (start stop step : Option Expr)
  | call (f : Expr) (args : List Expr) (named : List (String × Expr))
  | filter (e : Expr) (line : Nat) (name : String) (args : List Expr) (named : List (String × Expr))
  | test (e : Expr) (line : Nat) (name : String) (args : List Expr)
  | negative (e : Expr)
  | positive (e : Expr)
  | not (e : Expr)
  | arithmetic (op : Arithmetic) (a b : Expr)
  | concat (items : List Expr)
  | compare (first : Expr) (rest : List (Comparison × Expr))
  | and (a b : Expr)
  | or (a b : Expr)
  | choose (line : Nat) (condition yes : Expr) (no : Option Expr)
  deriving Inhabited

/-- What a value is assigned to: a name or several. -/
inductive Target where
  | name (n : String)
  | tuple (items : List Target)
  | attribute (object field : String)
  deriving Inhabited, Repr

/-- A part of a template. -/
inductive Node where
  /-- Text that stands for itself. -/
  | text (s : String)
  /-- An expression whose value is printed. -/
  | print (e : Expr)
  /-- The first branch whose condition holds, or the last list of nodes. -/
  | branch (condition : Expr) (yes no : List Node)
  /-- One round per item; the last list is for no items at all. -/
  | loop (target : Target) (items : Expr) (filter : Option Expr) (body no : List Node)
  | assign (target : Target) (e : Expr)
  /-- The text of the body is assigned. -/
  | capture (target : Target) (body : List Node)
  /-- An expression evaluated for its effect. -/
  | run (e : Expr)
  | leave
  | next
  deriving Inhabited

end CachedViews.Template
