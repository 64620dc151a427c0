import CachedViews.Proofs.Config.Loading
import CachedViews.Proofs.Config.Overlay
import CachedViews.Proofs.Path.Below
import Mathlib

/-
# Layers of a configuration

Loading lays the environment on top of a file and further entries on top of both, and checks what
comes out. Of each setting only the uppermost value is ever checked (`Config.uppermost`): if it
passes, a value below it may be as wrong as it likes, and if it does not, no good value below it
helps. A value counts as given wherever it stands and whatever it is, so that a setting is left at
its default just when no layer has it (`Config.load_layers`).

A key that is no text is no setting, but it is not refused as an unknown one is: it ends loading
before any setting is checked, with a fault that is none of the configuration
(`Config.load_numbered_key`).

Key definitions: `Config.fileEntries`, `Config.fromEnvironment`, `Config.uppermost`.
Key theorems: `Config.variableValue_directories`, `Config.lookup_onTop`,
`Config.load_layers`.
-/

namespace CachedViews

open CachedViews.Text

namespace Config

variable {h : Host} {path : Option String} {start : String} {file added : List (Value × Value)}

/-! ### What the layers have for a setting -/

/-- The entries of the file, none if there is no path to one. -/
def fileEntries (h : Host) : Option String → Except Fault (List (Value × Value))
  | none | some "" => .ok []
  | some path => entriesOfFile h path

/-- The value that the environment has for a setting. -/
def fromEnvironment (h : Host) (start : String) (s : Setting) : Option Value :=
  if s ∈ variableSettings then
    (h.environment.lookup (variableName start s)).map (variableValue s)
  else none

/-- The value of a setting in the uppermost layer that has one: the further entries, where the last
one counts, or else the environment, or else the file. -/
def uppermost (h : Host) (start : String) (file added : List (Value × Value)) (s : Setting) :
    Option Value :=
  ((Value.stringFields added).reverse.lookup s.key).or
    ((fromEnvironment h start s).or ((Value.stringFields file).lookup s.key))

/-- Directories that are separated by colons are taken apart, and empty ones left out. -/
theorem variableValue_directories {parts : List (List Char)} (hparts : ∀ p ∈ parts, ':' ∉ p)
    (hseveral : 2 ≤ parts.length) :
    variableValue .partialsDir (String.ofList (joinWith [':'] parts)) =
      .list ((parts.filter (· ≠ [])).map fun p => .str (String.ofList p)) := by
  obtain ⟨a, b, more, rfl⟩ : ∃ a b more, parts = a :: b :: more := by
    rcases parts with _ | ⟨a, _ | ⟨b, more⟩⟩
    · cases hseveral
    · exact absurd hseveral (by simp)
    · exact ⟨a, b, more, rfl⟩
  have hcolon : ':' ∈ joinWith [':'] (a :: b :: more) := by simp [joinWith]
  unfold variableValue
  rw [String.toList_ofList, if_pos ⟨rfl, List.contains_iff_mem.2 hcolon⟩,
    Components.splitOn_joinWith hparts (List.cons_ne_nil _ _)]

/-- A text without a colon, and one for any other setting, is the value itself. -/
theorem variableValue_text {s : Setting} {text : String}
    (htext : s ≠ .partialsDir ∨ ':' ∉ text.toList) : variableValue s text = .str text := by
  unfold variableValue
  rw [if_neg]
  rintro ⟨hs, hcolon⟩
  rcases htext with hne | hno
  · exact hne hs
  · exact hno (List.contains_iff_mem.1 hcolon)

theorem lookup_entriesOfVariables (h : Host) (start : String) (s : Setting) :
    (entriesOfVariables h start).reverse.lookup s.key = fromEnvironment h start s := by
  have hentries : (entriesOfVariables h start).reverse =
      variableSettings.reverse.filterMap fun t =>
        ((h.environment.lookup (variableName start t)).map (variableValue t)).map
          fun v => (t.key, v) := by
    unfold entriesOfVariables
    rw [← List.filterMap_reverse]
    simp only [Option.map_map, Function.comp_def]
  rw [hentries, lookup_filterMap Setting.key_injective]
  exact if_congr List.mem_reverse rfl rfl

theorem known_entriesOfVariables (h : Host) (start : String) :
    Known (entriesOfVariables h start) := fun f hf => by
  obtain ⟨s, -, hs⟩ := List.mem_filterMap.1 hf
  obtain ⟨text, -, rfl⟩ := Option.map_eq_some_iff.1 hs
  exact ⟨s, rfl⟩

/-! ### The layers on top of each other -/

theorem stringFields_onTop_given (h : Host) (start : String)
    (file added : List (Value × Value)) :
    Value.stringFields (Value.onTop file (given h start added)) =
      Value.overlay (Value.stringFields file)
        (entriesOfVariables h start ++ Value.stringFields added) := by
  unfold given
  rw [stringFields_onTop, stringFields_append, stringFields_map]

/-- **The layers together have the uppermost values.** -/
theorem lookup_onTop (h : Host) (start : String) (file added : List (Value × Value))
    (s : Setting) :
    (Value.stringFields (Value.onTop file (given h start added))).lookup s.key =
      uppermost h start file added s := by
  rw [stringFields_onTop_given, lookup_overlay_last, List.reverse_append,
    List.lookup_append, lookup_entriesOfVariables, Option.or_assoc]
  rfl

theorem known_onTop :
    Known (Value.stringFields (Value.onTop file (given h start added))) ↔
      Known (Value.stringFields file) ∧ Known (Value.stringFields added) := by
  rw [stringFields_onTop_given, known_overlay]
  refine and_congr_right fun _ => ?_
  unfold Known
  rw [List.forall_mem_append]
  exact and_iff_right (known_entriesOfVariables h start)

/-! ### Loading -/

theorem ofValue_dict_eq (hfile : TextKeys file) :
    ofValue (.dict file) = build (Value.stringFields file) := by
  have hfields : fieldsOf (.dict file) = .ok (Value.stringFields file) := by
    unfold fieldsOf
    cases file with
    | nil => rfl
    | cons e es => exact if_pos hfile
  unfold ofValue
  rw [hfields]
  rfl

theorem load_eq (hfile : fileEntries h path = .ok file) :
    load h path start added = ofValue (.dict (Value.onTop file (given h start added))) := by
  unfold fileEntries at hfile
  split at hfile
  · cases hfile
    rfl
  · cases hfile
    rfl
  · next path hne =>
    rw [load_file hne, hfile]
    rfl

/-- What is made of fields takes their values on top of the defaults. -/
theorem takes_of_ofFields {fields : List (String × Value)} {c : Config}
    (hc : ofFields fields = .ok c) : Takes {} (option? fields) c := by
  intro s
  have hsettled := (ofFields_eq_ok_iff.1 hc).1 s
  have hdefault := isDefault_of_ofFields hc s
  unfold settled at hsettled
  unfold option?
  cases hv : fields.lookup s.key with
  | some v =>
    rw [hv] at hsettled hdefault
    exact ⟨hsettled, hdefault⟩
  | none =>
    rw [hv] at hsettled hdefault
    exact ⟨(Except.ok.inj hsettled).symm, hdefault⟩

/-- There are no entries but those of settings, and the uppermost value of each setting passes its
check. -/
structure SoundLayers (h : Host) (start : String) (file added : List (Value × Value)) : Prop where
  knownFile : Known (Value.stringFields file)
  knownAdded : Known (Value.stringFields added)
  valid : ∀ s v, uppermost h start file added s = some v → ∃ w, validated s v = .ok w

theorem ofFields_onTop_succeeds_iff :
    (∃ c, ofFields (Value.stringFields (Value.onTop file (given h start added))) = .ok c) ↔
      SoundLayers h start file added := by
  have hsettled : ∀ s,
      (∃ w, settled (Value.stringFields (Value.onTop file (given h start added))) s = .ok w) ↔
        ∀ v, uppermost h start file added s = some v → ∃ w, validated s v = .ok w := by
    intro s
    unfold settled
    rw [lookup_onTop]
    cases uppermost h start file added s with
    | none => exact iff_of_true ⟨_, rfl⟩ nofun
    | some v => exact ⟨fun hv w hw => Option.some.inj hw ▸ hv, fun hv => hv v rfl⟩
  rw [ofFields_succeeds_iff, known_onTop, forall_congr' hsettled]
  exact ⟨fun ⟨⟨hfile, hadded⟩, hvalid⟩ => ⟨hfile, hadded, hvalid⟩,
    fun hs => ⟨⟨hs.knownFile, hs.knownAdded⟩, hs.valid⟩⟩

/-- **How layers make a configuration.** With texts for keys, loading succeeds just when all entries
are those of settings and every uppermost value passes its check. The configuration has the
uppermost values in checked form and is at its default where there is none; every failure is one of
the configuration. With another key in the file or in the further entries, loading always fails, and
not so. -/
theorem load_layers (start : String) (added : List (Value × Value))
    (hfile : fileEntries h path = .ok file) :
    (TextKeys file ∧ TextKeys added →
      ((∃ c, load h path start added = .ok c) ↔ SoundLayers h start file added) ∧
      (∀ c, load h path start added = .ok c →
        Takes {} (uppermost h start file added) c ∧
          ∀ s, c.isDefault s = (uppermost h start file added s).isNone) ∧
      ∀ f, load h path start added = .error f → ∃ fs, f = .view (.invalidConfiguration fs)) ∧
    (¬(TextKeys file ∧ TextKeys added) →
      load h path start added = .error (.type .keywordsNotStrings)) := by
  have hkeys : TextKeys (Value.onTop file (given h start added)) ↔
      TextKeys file ∧ TextKeys added := by
    rw [textKeys_onTop_iff]
    refine and_congr_right fun _ => ?_
    unfold TextKeys given
    rw [List.all_append, Bool.and_eq_true]
    exact and_iff_right (by simp [Value.string?])
  rw [load_eq hfile, ← hkeys]
  refine ⟨fun htext => ?_, ofValue_dict_of_not_text⟩
  rw [ofValue_dict_eq htext]
  have hbuild : ∀ fields c, build fields = .ok c ↔ ofFields fields = .ok c := fun fields c => by
    unfold build
    cases ofFields fields <;> simp
  refine ⟨?_, fun c hc => ?_, fun f hf => ?_⟩
  · simp only [hbuild]
    exact ofFields_onTop_succeeds_iff
  · have hfields := (hbuild _ c).1 hc
    have htop : option? (Value.stringFields (Value.onTop file (given h start added))) =
        uppermost h start file added := funext (lookup_onTop h start file added)
    refine ⟨htop ▸ takes_of_ofFields hfields, fun s => ?_⟩
    rw [isDefault_of_ofFields hfields, lookup_onTop]
  · unfold build at hf
    split at hf
    · cases hf
    · exact ⟨_, (Except.error.inj hf).symm⟩

/-- An empty extension in the environment is refused, but one on top of it is loaded, and next to it
the directories that colons separate. -/
theorem load_layers_over_empty_extname :
    let h : Host :=
      { cwd := "/", home := "/", runtime := default
        environment := [("TEMPLATE_VIEWS_EXTNAME", ""), ("TEMPLATE_VIEWS_PARTIALS_DIR", "a::b")] }
    fileEntries h none = .ok [] ∧
      (∃ fs, load h none usualStart [] = .error (.view (.invalidConfiguration fs))) ∧
      ∃ c, load h none usualStart [(.str "extname", .str "tpl")] = .ok c ∧
        c.value .extname = .str ".tpl" ∧ c.value .partialsDir = .list [.str "a", .str "b"] ∧
        c.isDefault .partialsDir = false ∧ c.isDefault .layoutsDir = true := by
  intro h
  have hfile : fileEntries h none = .ok [] := rfl
  obtain ⟨hbare, -⟩ := load_layers usualStart [] hfile
  obtain ⟨hsound, -, hfails⟩ := hbare ⟨rfl, rfl⟩
  obtain ⟨hover, -⟩ := load_layers usualStart [(.str "extname", .str "tpl")] hfile
  obtain ⟨hsound', htakes, -⟩ := hover ⟨rfl, rfl⟩
  have hempty : uppermost h usualStart [] [] .extname = some (.str "") := rfl
  have hrefused : ∃ fs, load h none usualStart [] = .error (.view (.invalidConfiguration fs)) := by
    cases hload : load h none usualStart [] with
    | ok c =>
      obtain ⟨w, hw⟩ := (hsound.1 ⟨c, hload⟩).valid .extname _ hempty
      cases hw
    | error f =>
      obtain ⟨fs, rfl⟩ := hfails f hload
      exact ⟨fs, rfl⟩
  have hvalid : SoundLayers h usualStart [] [(.str "extname", .str "tpl")] := by
    refine ⟨nofun, unknownFields_eq_nil_iff.1 rfl, fun s v hv => ?_⟩
    cases s <;> cases hv
    · exact ⟨.str ".tpl", rfl⟩
    · exact ⟨.list [.str "a", .str "b"], rfl⟩
  obtain ⟨c, hc⟩ := hsound'.2 hvalid
  obtain ⟨htop, hdefault⟩ := htakes c hc
  exact ⟨hfile, hrefused, c, hc, (Except.ok.inj (htop .extname).1).symm,
    (Except.ok.inj (htop .partialsDir).1).symm, hdefault .partialsDir, hdefault .layoutsDir⟩

/-- A host with a configuration file in which one key is a number and another is no setting. -/
def hostWithNumber : Host :=
  { files := ⟨.directory [("c.yaml", .file "1: 2\nbad: 3\n".toUTF8.toList)]⟩, cwd := "/"
    home := "/", runtime := default }

theorem fileEntries_number :
    fileEntries hostWithNumber (some "c.yaml") = .ok [(.int 1, .int 2), (.str "bad", .int 3)] := by
  have hfound : Found hostWithNumber "c.yaml" "c.yaml" := ⟨rfl, rfl, by decide +kernel⟩
  have htext : hostWithNumber.readText "c.yaml" = .ok "1: 2\nbad: 3\n" := by decide +kernel
  have hsuffix : Path.suffix "c.yaml" = ".yaml" := by decide +kernel
  have hread : Yaml.read "1: 2\nbad: 3\n" =
      .ok (.dict [(.int 1, .int 2), (.str "bad", .int 3)]) := by cbv
  change entriesOfFile hostWithNumber "c.yaml" = _
  rw [entriesOfFile_found hfound, htext, hsuffix]
  simp only [parseText, if_neg (show ¬".yaml" = ".json" by decide), hread]
  rfl

/-- A key that is no setting does not make loading fail with a fault of the configuration where
another key is a number. -/
theorem load_numbered_key :
    let f : Fault := .type .keywordsNotStrings
    ∃ file, fileEntries hostWithNumber (some "c.yaml") = .ok file ∧
      ("bad", .int 3) ∈ Value.stringFields file ∧ (∀ s : Setting, s.key ≠ "bad") ∧
      load hostWithNumber (some "c.yaml") usualStart [] = .error f ∧
      f.kind ≠ ReportKind.configuration.name := by
  intro f
  refine ⟨_, fileEntries_number, List.mem_singleton.2 rfl, fun s => by cases s <;> decide, ?_,
    by decide⟩
  rw [load_eq fileEntries_number]
  exact ofValue_dict_of_not_text (mt textKeys_onTop_iff.1 fun hk => by cases hk.1)

end Config

end CachedViews
