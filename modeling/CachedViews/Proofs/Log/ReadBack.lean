import CachedViews.Log.Record
import CachedViews.Proofs.Json.ReadBack

/-
# Structured log lines can be read back

A record in the structured format is one line of printable ASCII, whatever characters its texts
hold, so no record can forge or break lines of the log. Read as JSON, the line gives back what the
record says (`Log.Entry.field?`): its level, logger, message, module and line, its view, file and
failure exactly if it has them, and every further field, which takes the place of a field of the
record with its name (`Log.read_structured`).

Not every record has a line. One does exactly if it was made at a time that the calendar has, has a
problem if it is to tell of one, and its line number has few enough digits or is replaced
(`Log.exists_line_iff`).

Key definitions: `Log.Entry`, `Log.Record.Says`, `Log.Fits`, `Log.ReadBack`.
Key theorems: `Log.lookup_fields`, `Log.exists_line_iff`, `Log.read_structured`.
-/

namespace CachedViews.Log

/-- What went wrong, as a record tells it. -/
structure Failure where
  kind : String
  message : String
  trace : String
  deriving DecidableEq

/-- What a record says. -/
structure Entry where
  level : String
  logger : String
  message : String
  module : String
  line : Int
  view : Option String := none
  filePath : Option String := none
  failure : Option Failure := none

/-- A record says this with its fields. -/
structure Record.Says (r : Record) (e : Entry) : Prop where
  level : r.level = .str e.level
  logger : r.logger = .str e.logger
  message : r.text = .ok e.message
  module : r.module = .str e.module
  line : r.line = .int e.line
  view : r.view = e.view.map .str
  filePath : r.filePath = e.filePath.map .str
  failure : (r.problem.map fun p => ⟨p.kind, p.message, r.passage ++ p.trace⟩) = e.failure

/-- A failure as a value. -/
def Failure.value (f : Failure) : Value :=
  Value.ofFields [("type", .str f.kind), ("message", .str f.message), ("traceback", .str f.trace)]

/-- What is to be found under a name, if the entry is of this time. -/
def Entry.field? (e : Entry) (time : Moment) : String → Option Value
  | "timestamp" => some (.str (time.render "T"))
  | "level" => some (.str e.level)
  | "logger" => some (.str e.logger)
  | "message" => some (.str e.message)
  | "module" => some (.str e.module)
  | "line" => some (.int e.line)
  | "view" => e.view.map .str
  | "file_path" => e.filePath.map .str
  | "exception" => e.failure.map Failure.value
  | _ => none

/-- The line is one of printable ASCII and tells the entry, with further fields. -/
structure ReadBack (e : Entry) (time : Moment) (more : List (String × String)) (line : String) :
    Prop where
  plain : ∀ c ∈ line.toList, Json.isPlain c = true
  /-- Read as JSON it is a mapping that has each name once. Under a name is the last of the further
  fields that has it, or else what the entry has there. -/
  fields : ∃ fields, Json.read line = .ok (Value.ofFields fields) ∧ (fields.map Prod.fst).Nodup ∧
    ∀ name, fields.lookup name =
      ((more.reverse.lookup name).map Value.str).or (e.field? time name)

/-- If a record is to tell of a problem, there is one. -/
def Record.Met (r : Record) : Prop := r.unmet = true → r.problem.isSome = true

/-- The line number has few enough digits, or a further field takes its place. -/
def Fits (line : Int) (more : List (String × String)) : Prop :=
  "line" ∈ more.map Prod.fst ∨ (Nat.toDigits 10 line.natAbs).length ≤ Json.digitLimit

variable {r : Record} {e : Entry} {time : Moment} {more : List (String × String)}

/-! ### The fields of a record -/

/-- A field of a value that may be missing. -/
def optionalField (name : String) (v : Option Value) : List (String × Value) :=
  (v.map fun v => (name, v)).toList

/-- The fields of an entry, in their order. -/
def Entry.fields (e : Entry) (time : Moment) : List (String × Value) :=
  [("timestamp", .str (time.render "T")), ("level", .str e.level), ("logger", .str e.logger),
    ("message", .str e.message), ("module", .str e.module), ("line", .int e.line)] ++
    optionalField "view" (e.view.map .str) ++ optionalField "file_path" (e.filePath.map .str) ++
    optionalField "exception" (e.failure.map Failure.value)

/-- The fields of a record are those of what it says, if there is the problem that it is to tell
of. -/
theorem Record.Says.fields_eq (h : r.Says e) (ht : r.moment = .ok time) :
    r.fields = if r.problem.isNone && r.unmet then .error (.attribute "NoneType" "__name__")
      else .ok (e.fields time) := by
  have hfailure : (r.problem.map fun p => Value.ofFields
      [("type", .str p.kind), ("message", .str p.message),
        ("traceback", .str (r.passage ++ p.trace))]) = e.failure.map Failure.value := by
    rw [← h.failure, Option.map_map]
    rfl
  unfold Record.fields
  rw [ht, h.message]
  simp only [bind, Except.bind, pure, Except.pure, Option.isNone_map]
  rw [h.level, h.logger, h.module, h.line, h.view, h.filePath, hfailure]
  split <;> rfl

theorem lookup_optionalField (name : String) (v : Option Value) (key : String) :
    (optionalField name v).lookup key = if key = name then v else none := by
  cases v with
  | none => rw [ite_self]; rfl
  | some v => exact lookup_field name v [] key

/-- Under each name of an entry is what is to be found there. -/
theorem lookup_fields (e : Entry) (time : Moment) (name : String) :
    (e.fields time).lookup name = e.field? time name := by
  unfold Entry.field?
  split <;> simp_all [Entry.fields, List.lookup_append, lookup_field, lookup_optionalField]

theorem nodup_fields (e : Entry) (time : Moment) : ((e.fields time).map Prod.fst).Nodup := by
  unfold Entry.fields optionalField
  cases e.view <;> cases e.filePath <;> cases e.failure <;> simp

/-- What is found in an entry is told by JSON exactly, if its line number is short or something
else was looked for. -/
theorem exact_field {name : String} {v : Value} (h : e.field? time name = some v)
    (hline : name = "line" → (Nat.toDigits 10 e.line.natAbs).length ≤ Json.digitLimit) :
    Json.Exact v := by
  have htext : ∀ (o : Option String), o.map Value.str = some v → Json.Exact v := by
    rintro o ho
    obtain ⟨s, -, rfl⟩ := Option.map_eq_some_iff.1 ho
    exact .str s
  unfold Entry.field? at h
  split at h
  case h_6 =>
    obtain rfl := Option.some.inj h
    exact .int _ (hline rfl)
  case h_7 => exact htext _ h
  case h_8 => exact htext _ h
  case h_9 =>
    obtain ⟨f, -, rfl⟩ := Option.map_eq_some_iff.1 h
    refine .fields _ (by simp) fun g hg => ?_
    simp only [List.mem_cons, List.not_mem_nil, or_false] at hg
    rcases hg with rfl | rfl | rfl <;> exact .str _
  case h_10 => cases h
  all_goals
    obtain rfl := Option.some.inj h
    exact .str _

/-! ### Further fields -/

/-- Further texts as fields. -/
def textFields (more : List (String × String)) : List (String × Value) :=
  more.map fun f => (f.1, .str f.2)

/-- All that is written for an entry. -/
def Entry.written (e : Entry) (time : Moment) (more : List (String × String)) :
    List (String × Value) :=
  Value.overlay (e.fields time) (textFields more)

theorem nodup_written (e : Entry) (time : Moment) (more : List (String × String)) :
    ((e.written time more).map Prod.fst).Nodup :=
  nodup_names_overlay (nodup_fields e time) _

theorem lookup_written (e : Entry) (time : Moment) (more : List (String × String))
    (name : String) : (e.written time more).lookup name =
      ((more.reverse.lookup name).map Value.str).or (e.field? time name) := by
  rw [Entry.written, lookup_overlay_last, textFields, ← List.map_reverse,
    lookup_map_snd Value.str, lookup_fields]

/-- Under a name that no further field has is what the entry has there. -/
theorem lookup_written_of_not_mem {name : String} (h : name ∉ more.map Prod.fst) :
    (e.written time more).lookup name = e.field? time name := by
  have hnone : more.reverse.lookup name = none :=
    lookup_eq_none_of_not_mem fun f hf hname =>
      h (List.mem_map.2 ⟨f, List.mem_reverse.1 hf, hname⟩)
  rw [lookup_written, hnone]
  rfl

theorem exact_written (h : Fits e.line more) (time : Moment) :
    ∀ f ∈ e.written time more, Json.Exact f.2 := by
  intro f hf
  have hlookup : (e.written time more).lookup f.1 = some f.2 :=
    lookup_of_mem (nodup_written e time more) hf
  rw [lookup_written] at hlookup
  cases hname : more.reverse.lookup f.1 with
  | some s =>
    rw [hname] at hlookup
    rw [← Option.some.inj hlookup]
    exact .str s
  | none =>
    rw [hname] at hlookup
    refine exact_field hlookup fun hline => h.resolve_left fun hmem => ?_
    obtain ⟨g, hg, hgname⟩ := List.mem_map.1 hmem
    have hne := List.lookup_eq_none_iff.1 hname g (List.mem_reverse.2 hg)
    simp [hline, hgname] at hne

/-! ### Lines -/

theorem met_iff : r.Met ↔ (r.problem.isNone && r.unmet) = false := by
  unfold Record.Met
  cases r.unmet <;> cases r.problem <;> simp

/-- The line of a record is what is written for its entry, once the problem is there that it is to
tell of. -/
theorem structured_eq_ok_iff (h : r.Says e) (ht : r.moment = .ok time) {line : String} :
    r.structured (textFields more) = .ok line ↔
      r.Met ∧ Json.write .oneLine (Value.ofFields (e.written time more)) = .ok line := by
  have hwritten : Value.overlay (e.fields time) (textFields more) = e.written time more := rfl
  unfold Record.structured
  rw [h.fields_eq ht, met_iff]
  cases (r.problem.isNone && r.unmet) with
  | true => simp [bind, Except.bind]
  | false =>
    simp only [bind, Except.bind, Bool.false_eq_true, if_false, hwritten, true_and]
    cases Json.write .oneLine (Value.ofFields (e.written time more)) <;> simp [pure, Except.pure]

/-- **A record of texts has a line exactly if** the calendar has its time, there is the problem that
it is to tell of, and its line number fits. -/
theorem exists_line_iff (h : r.Says e) :
    (∃ line, r.structured (textFields more) = .ok line) ↔
      (∃ time, r.moment = .ok time) ∧ r.Met ∧ Fits e.line more := by
  constructor
  · rintro ⟨line, hline⟩
    cases ht : r.moment with
    | error f =>
      unfold Record.structured Record.fields at hline
      rw [ht] at hline
      cases hline
    | ok time =>
      obtain ⟨hmet, hwrite⟩ := (structured_eq_ok_iff h ht).1 hline
      refine ⟨⟨time, rfl⟩, hmet, ?_⟩
      by_contra hfits
      -- then the number is written itself, and has no text
      obtain ⟨hnot, hlong⟩ := not_or.1 hfits
      have hlookup : (e.written time more).lookup "line" = some (.int e.line) :=
        lookup_written_of_not_mem hnot
      have hmem := mem_of_lookup hlookup
      obtain ⟨t, ht⟩ := Json.exists_text_of_write hwrite _ hmem
      rw [Json.writeAt, Json.integerText, if_pos (not_le.1 hlong)] at ht
      cases ht
  · rintro ⟨⟨time, ht⟩, hmet, hfits⟩
    obtain ⟨line, hwrite, -⟩ :=
      Json.read_write (.fields _ (nodup_written e time more) (exact_written hfits time))
    exact ⟨line, (structured_eq_ok_iff h ht).2 ⟨hmet, hwrite⟩⟩

/-- **A record of texts, made at a time that the calendar has, is written as one line of printable
ASCII, which is read as what the record says.** -/
theorem read_structured (h : r.Says e) (ht : r.moment = .ok time) (hmet : r.Met)
    (hfits : Fits e.line more) :
    ∃ line, r.structured (textFields more) = .ok line ∧ ReadBack e time more line := by
  have hnodup := nodup_written e time more
  obtain ⟨line, hwrite, hplain, hread⟩ :=
    Json.read_write (.fields _ hnodup (exact_written hfits time))
  exact ⟨line, (structured_eq_ok_iff h ht).2 ⟨hmet, hwrite⟩, hplain, _, hread, hnodup,
    lookup_written e time more⟩

/-- A record whose message would break its line, and which tells of a problem. -/
def brokenRecord : Record where
  level := .str "INFO"
  logger := .str "a \"b\""
  module := .str "módulo"
  line := .int (-7)
  created := 1.5
  message := .str "one\n\x7b\"level\": \"ERROR\"\x7d \u001b[2J 😀"
  view := some (.str "home")
  problem := some ⟨"Boom", "app.Boom", "C:\\views\tgone"⟩

/-- What it says. -/
def brokenEntry : Entry where
  level := "INFO"
  logger := "a \"b\""
  message := "one\n\x7b\"level\": \"ERROR\"\x7d \u001b[2J 😀"
  module := "módulo"
  line := -7
  view := some "home"
  failure := some ⟨"Boom", "C:\\views\tgone", "app.Boom: C:\\views\tgone"⟩

theorem read_structured_broken :
    brokenRecord.Says brokenEntry ∧
      brokenRecord.moment = .ok ⟨1970, 1, 1, some (0, 0, 1, 500000), none⟩ ∧
      brokenRecord.Met ∧ Fits brokenEntry.line [("view", "«none»"), ("host", "ß")] ∧
      ∃ line, brokenRecord.structured (textFields [("view", "«none»"), ("host", "ß")]) = .ok line ∧
        ReadBack brokenEntry ⟨1970, 1, 1, some (0, 0, 1, 500000), none⟩
          [("view", "«none»"), ("host", "ß")] line := by
  have hentry : brokenRecord.Says brokenEntry :=
    ⟨rfl, rfl, by decide +kernel, rfl, rfl, rfl, rfl, by decide +kernel⟩
  have hmoment : brokenRecord.moment = .ok ⟨1970, 1, 1, some (0, 0, 1, 500000), none⟩ := by
    decide +kernel
  have hfits : Fits brokenEntry.line [("view", "«none»"), ("host", "ß")] := .inr (by decide)
  exact ⟨hentry, hmoment, fun _ => rfl, hfits, read_structured hentry hmoment (fun _ => rfl) hfits⟩

/-! ### Records without a line -/

/-- A record with nothing but what each record has. -/
def briefRecord (created : Float) (line : Int) (unmet : Bool) : Record where
  level := .str "INFO"
  logger := .str "app"
  module := .str "app"
  line := .int line
  created := created
  message := .str "hi"
  unmet := unmet

/-- What it says. -/
def briefEntry (line : Int) : Entry where
  level := "INFO"
  logger := "app"
  message := "hi"
  module := "app"
  line := line

theorem says_briefRecord (created : Float) (line : Int) (unmet : Bool) :
    (briefRecord created line unmet).Says (briefEntry line) :=
  ⟨rfl, rfl, rfl, rfl, rfl, rfl, rfl, rfl⟩

theorem long_power (k : Nat) : k < (Nat.toDigits 10 ((10 : Int) ^ k).natAbs).length := by
  have hpower : ((10 : Int) ^ k).natAbs = 10 ^ k := Int.natAbs_pow 10 k
  rw [hpower]
  by_contra hshort
  rcases Nat.eq_zero_or_pos k with rfl | hk
  · exact hshort (by decide)
  · have hless := (Nat.length_toDigits_le_iff (by decide) hk).1 (not_lt.1 hshort)
    exact absurd hless (lt_irrefl _)

/-- There are records of texts without a line: that of a time far behind the last year of the
calendar, that with too long a line number, and that without the problem that it is to tell of. -/
theorem unwritten_records :
    ((briefRecord 1000000000000.0 1 false).Says (briefEntry 1) ∧
      ∀ line, (briefRecord 1000000000000.0 1 false).structured [] ≠ .ok line) ∧
    ((briefRecord 0.0 (10 ^ Json.digitLimit) false).Says (briefEntry (10 ^ Json.digitLimit)) ∧
      ∀ line, (briefRecord 0.0 (10 ^ Json.digitLimit) false).structured [] ≠ .ok line) ∧
    (briefRecord 0.0 1 true).Says (briefEntry 1) ∧
      ∀ line, (briefRecord 0.0 1 true).structured [] ≠ .ok line := by
  have hparts : ∀ {created n unmet line},
      (briefRecord created n unmet).structured [] = .ok line →
        (∃ time, (briefRecord created n unmet).moment = .ok time) ∧
          (briefRecord created n unmet).Met ∧ Fits n [] := by
    intro created n unmet line hline
    have hbare : (briefRecord created n unmet).structured (textFields []) = .ok line := hline
    exact (exists_line_iff (says_briefRecord _ _ _)).1 ⟨line, hbare⟩
  refine ⟨⟨says_briefRecord _ _ _, fun line hline => ?_⟩,
    ⟨says_briefRecord _ _ _, fun line hline => ?_⟩, says_briefRecord _ _ _, fun line hline => ?_⟩
  · obtain ⟨⟨time, ht⟩, -⟩ := hparts hline
    have hnone : (briefRecord 1000000000000.0 1 false).moment.toOption = none := by decide +kernel
    rw [ht] at hnone
    cases hnone
  · obtain ⟨-, -, hfits⟩ := hparts hline
    exact absurd (hfits.resolve_left nofun) (not_le.2 (long_power _))
  · obtain ⟨-, hmet, -⟩ := hparts hline
    cases hmet rfl

end CachedViews.Log
