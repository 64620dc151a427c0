import CachedViews.Config.Loading
import CachedViews.Proofs.Config.NormalForm

/-
# How loading a configuration ends

Loading gives a configuration in normal form or fails. Most failures are faults of the
configuration: the file is missing or refused by the file system, it has an unknown suffix, its text
is malformed or no mapping, or a setting does not pass its check. The others are all faults of the
file (`Config.Escapes`), each with a step of its own that lets it pass: its path cannot be followed,
its octets are no text, its text writes a value that cannot be made, or its mapping has a key that
is no text. What the environment and further fields with texts for keys add is no cause of any.

Not covered: how deep the text of a file is nested.

Key definitions: `Config.FileEscapes`, `Config.Escapes`.
Key theorems: `Config.entriesOfFile_error`, `Config.entriesOfFile_escapes`,
`Config.textKeys_onTop`, `Config.load_ends`.
-/

namespace CachedViews

open CachedViews.Text

namespace Config

variable {h : Host} {path file text : String} {f : Fault} {es added : List (Value × Value)}

/-! ### Files -/

/-- A configuration file that is there, with a known suffix. -/
structure Found (h : Host) (path file : String) : Prop where
  home : h.expandHome path = .ok file
  present : h.exists? file = .ok true
  format : fileSuffixes.contains (Path.suffix file) = true

/-- The faults of a configuration file that are no faults of the configuration. -/
inductive FileEscapes (h : Host) (path : String) : Fault → Prop
  | unknownHome (hf : h.expandHome path = .error .unknownHome) : FileEscapes h path .unknownHome
  | nameTooLong {file : String} (hh : h.expandHome path = .ok file)
      (hf : h.exists? file = .error (.file ⟨.nameTooLong, file⟩)) :
      FileEscapes h path (.file ⟨.nameTooLong, file⟩)
  | notText {file : String} {e : Utf8Error} (hfile : Found h path file)
      (hf : h.readText file = .error (.notText e)) : FileEscapes h path (.notText e)
  | hugeInteger {file text : String} {digits : Nat} (hfile : Found h path file)
      (htext : h.readText file = .ok text) (hjson : Path.suffix file = ".json")
      (hf : Json.read text = .error (.hugeInteger digits)) :
      FileEscapes h path (.value (.hugeInteger digits))
  | yamlValue {file text : String} {f : Fault} (hfile : Found h path file)
      (htext : h.readText file = .ok text) (hyaml : Path.suffix file ≠ ".json")
      (hf : Yaml.read text = .error (.fault f)) : FileEscapes h path f

theorem expandHome_error (hf : h.expandHome path = .error f) : f = .unknownHome := by
  have hhome : ∀ {component}, h.homeOf component = .error f → f = .unknownHome := by
    intro component hc
    unfold Host.homeOf at hc
    dsimp only at hc
    split at hc
    · exact (Except.error.inj hc).symm
    · split at hc
      · cases hc
      · split at hc
        · exact (Except.error.inj hc).symm
        · cases hc
  unfold Host.expandHome at hf
  dsimp only at hf
  split at hf
  · split at hf
    · rename_i first more hkept
      cases hc : h.homeOf first with
      | error f' =>
        rw [hc] at hf
        obtain rfl : f' = f := Except.error.inj hf
        exact hhome hc
      | ok home =>
        rw [hc] at hf
        cases hf
    · cases hf
  · cases hf

theorem exists?_error (hf : h.exists? file = .error f) : f = .file ⟨.nameTooLong, file⟩ := by
  unfold Host.exists? at hf
  split at hf
  · cases hf
  · exact (Except.error.inj hf).symm
  · cases hf

theorem parseText_error {suffix : String} (hf : parseText path suffix text = .error f) :
    f.kind = ReportKind.configuration.name ∨
      (suffix = ".json" ∧ ∃ digits, Json.read text = .error (.hugeInteger digits) ∧
        f = .value (.hugeInteger digits)) ∨
      suffix ≠ ".json" ∧ Yaml.read text = .error (.fault f) := by
  unfold parseText at hf
  by_cases hs : suffix = ".json"
  · rw [if_pos hs] at hf
    split at hf
    · cases hf
    · rename_i digits hread
      exact .inr (.inl ⟨hs, digits, hread, (Except.error.inj hf).symm⟩)
    · obtain rfl := Except.error.inj hf
      exact .inl rfl
  · rw [if_neg hs] at hf
    split at hf
    · cases hf
    · obtain rfl := Except.error.inj hf
      exact .inl rfl
    · rename_i f' hread
      obtain rfl := Except.error.inj hf
      exact .inr (.inr ⟨hs, hread⟩)

/-- The entries of a value that a file writes. -/
def entriesOfText (path : String) (v : Value) : Except Fault (List (Value × Value)) :=
  match v.isTrue, v with
  | false, _ => .ok []
  | true, .dict es => .ok es
  | true, _ => .error (.view (.configurationNotMapping path))

theorem entriesOfText_error {v : Value} (hf : entriesOfText path v = .error f) :
    f.kind = ReportKind.configuration.name := by
  unfold entriesOfText at hf
  split at hf
  · cases hf
  · cases hf
  · obtain rfl := Except.error.inj hf
    rfl

/-- The entries of a file that is found. -/
theorem entriesOfFile_found (hfile : Found h path file) :
    entriesOfFile h path =
      match h.readText file with
      | .error (.file f) => .error (.view (.unreadableConfiguration path f))
      | .error (.notText e) => .error (.notText e)
      | .ok text => parseText path (Path.suffix file) text >>= entriesOfText path := by
  unfold entriesOfFile
  rw [hfile.home]
  change (h.exists? file >>= _) = _
  rw [hfile.present]
  change (if (!fileSuffixes.contains (Path.suffix file)) = true then _ else _) = _
  rw [hfile.format]
  rfl

/-- A file that cannot be loaded is missing or has an unknown suffix, or its path cannot be
followed, or it is found. -/
theorem found_of_error (hf : entriesOfFile h path = .error f) :
    f.kind = ReportKind.configuration.name ∨ FileEscapes h path f ∨ ∃ file, Found h path file := by
  unfold entriesOfFile at hf
  cases hh : h.expandHome path with
  | error f' =>
    rw [hh] at hf
    obtain rfl : f' = f := Except.error.inj hf
    obtain rfl := expandHome_error hh
    exact .inr (.inl (.unknownHome hh))
  | ok file =>
    rw [hh] at hf
    change (h.exists? file >>= _) = _ at hf
    cases he : h.exists? file with
    | error f' =>
      rw [he] at hf
      obtain rfl : f' = f := Except.error.inj hf
      obtain rfl := exists?_error he
      exact .inr (.inl (.nameTooLong hh he))
    | ok present =>
      rw [he] at hf
      cases present with
      | false =>
        obtain rfl := Except.error.inj hf
        exact .inl rfl
      | true =>
        cases hs : fileSuffixes.contains (Path.suffix file) with
        | false =>
          change (if (!fileSuffixes.contains (Path.suffix file)) = true then _ else _) = _ at hf
          rw [hs] at hf
          obtain rfl := Except.error.inj hf
          exact .inl rfl
        | true => exact .inr (.inr ⟨file, hh, he, hs⟩)

/-- **A file that cannot be loaded** has a fault of the configuration, or one that escapes. -/
theorem entriesOfFile_error (hf : entriesOfFile h path = .error f) :
    f.kind = ReportKind.configuration.name ∨ FileEscapes h path f := by
  rcases found_of_error hf with hc | he | ⟨file, hfile⟩
  · exact .inl hc
  · exact .inr he
  · rw [entriesOfFile_found hfile] at hf
    split at hf
    · obtain rfl := Except.error.inj hf
      exact .inl rfl
    · rename_i e hread
      obtain rfl := Except.error.inj hf
      exact .inr (.notText hfile hread)
    · rename_i text hread
      cases hp : parseText path (Path.suffix file) text with
      | error f' =>
        rw [hp] at hf
        obtain rfl : f' = f := Except.error.inj hf
        rcases parseText_error hp with hc | ⟨hs, digits, hj, rfl⟩ | ⟨hs, hy⟩
        · exact .inl hc
        · exact .inr (.hugeInteger hfile hread hs hj)
        · exact .inr (.yamlValue hfile hread hs hy)
      | ok v =>
        rw [hp] at hf
        exact .inl (entriesOfText_error hf)

/-- What escapes is the fault of loading the file. -/
theorem entriesOfFile_escapes (hf : FileEscapes h path f) : entriesOfFile h path = .error f := by
  cases hf with
  | unknownHome hf =>
    unfold entriesOfFile
    rw [hf]
    rfl
  | nameTooLong hh hf =>
    unfold entriesOfFile
    rw [hh]
    change (h.exists? _ >>= _) = _
    rw [hf]
    rfl
  | notText hfile hf => rw [entriesOfFile_found hfile, hf]
  | hugeInteger hfile htext hjson hf =>
    rw [entriesOfFile_found hfile, htext]
    simp only [parseText, hjson, hf]
    rfl
  | yamlValue hfile htext hyaml hf =>
    rw [entriesOfFile_found hfile, htext]
    simp only [parseText, if_neg hyaml, hf]
    rfl

/-! ### Layers -/

theorem textKeys_onTop (hadded : TextKeys added) :
    TextKeys (Value.onTop es added) ↔ TextKeys es :=
  textKeys_onTop_iff.trans (and_iff_left hadded)

/-- Entries with texts for keys make a configuration in normal form, or a setting of theirs does not
pass its check. -/
theorem ofValue_dict (hes : TextKeys es) :
    (∃ c, ofValue (.dict es) = .ok c ∧ c.Normal) ∨
      ∃ fs, ofValue (.dict es) = .error (.view (.invalidConfiguration fs)) := by
  have hfields : ∃ fields, fieldsOf (.dict es) = .ok fields := by
    unfold fieldsOf
    split
    · exact ⟨_, if_pos hes⟩
    · exact ⟨[], rfl⟩
  obtain ⟨fields, hfields⟩ := hfields
  unfold ofValue
  rw [hfields]
  change (∃ c, build fields = .ok c ∧ c.Normal) ∨ ∃ fs, build fields = _
  unfold build
  cases hc : ofFields fields with
  | ok c => exact .inl ⟨c, rfl, normal_of_ofFields hc⟩
  | error fs => exact .inr ⟨fs, rfl⟩

theorem ofValue_dict_of_not_text (hes : ¬TextKeys es) :
    ofValue (.dict es) = .error (.type .keywordsNotStrings) := by
  have hfields : fieldsOf (.dict es) = .error (.type .keywordsNotStrings) := by
    unfold fieldsOf
    cases es with
    | nil => exact absurd rfl hes
    | cons e es => exact if_neg hes
  unfold ofValue
  rw [hfields]
  rfl

/-! ### Loading -/

/-- The faults of loading with a configuration file that are no faults of the configuration: those
of the file, and the refusal of a mapping with a key that is no text. -/
inductive Escapes (h : Host) (path : String) : Fault → Prop
  | file {f : Fault} (hf : FileEscapes h path f) : Escapes h path f
  | keys {es : List (Value × Value)} (hfile : entriesOfFile h path = .ok es)
      (hes : ¬TextKeys es) : Escapes h path (.type .keywordsNotStrings)

/-- The entries of the environment and the further ones. -/
def given (h : Host) (start : String) (added : List (Value × Value)) : List (Value × Value) :=
  ((entriesOfVariables h start).map fun (k, v) => (Value.str k, v)) ++ added

theorem textKeys_given (start : String) (hadded : TextKeys added) :
    TextKeys (given h start added) := by
  unfold TextKeys given
  rw [List.all_append, Bool.and_eq_true]
  exact ⟨by simp [Value.string?], hadded⟩

theorem load_without_file {p : Option String} (hp : p = none ∨ p = some "") (start : String) :
    load h p start added = ofValue (.dict (Value.onTop [] (given h start added))) := by
  rcases hp with rfl | rfl
  · rfl
  · rfl

theorem load_file (hp : path ≠ "") (start : String) :
    load h (some path) start added =
      entriesOfFile h path >>= fun file =>
        ofValue (.dict (Value.onTop file (given h start added))) := by
  unfold load
  split
  · rename_i hnone
    cases hnone
  · rename_i hempty
    exact absurd (Option.some.inj hempty) hp
  · rename_i hsome
    cases hsome
    rfl

/-- A configuration that is loaded is in normal form. -/
theorem normal_of_load {c : Config} {p : Option String} {start : String}
    (hc : load h p start added = .ok c) : c.Normal := by
  have hchecked : ∀ es, ofValue (.dict es) = .ok c → c.Normal := by
    intro es hes
    by_cases htext : TextKeys es
    · rcases ofValue_dict htext with ⟨c', hc', hnormal⟩ | ⟨fs, hfs⟩
      · obtain rfl := Except.ok.inj (hc'.symm.trans hes)
        exact hnormal
      · cases hfs.symm.trans hes
    · cases (ofValue_dict_of_not_text htext).symm.trans hes
  by_cases hpath : p = none ∨ p = some ""
  · rw [load_without_file hpath] at hc
    exact hchecked _ hc
  · obtain ⟨hnone, hempty⟩ := not_or.1 hpath
    obtain ⟨p, rfl⟩ := Option.ne_none_iff_exists'.1 hnone
    rw [load_file fun he => hempty (he ▸ rfl)] at hc
    cases hfile : entriesOfFile h p with
    | error f =>
      rw [hfile] at hc
      cases hc
    | ok file =>
      rw [hfile] at hc
      exact hchecked _ hc

/-- **How loading ends.** With further entries whose keys are texts, loading gives a configuration
in normal form, or fails with a fault of the configuration, or with one of those that escape; and
what escapes is always the fault it fails with. -/
theorem load_ends (h : Host) (path : Option String) (start : String)
    (added : List (Value × Value)) (hadded : TextKeys added) :
    ((∃ c, load h path start added = .ok c ∧ c.Normal) ∨
      (∃ f, load h path start added = .error f ∧ f.kind = ReportKind.configuration.name) ∨
      ∃ p f, path = some p ∧ p ≠ "" ∧ Escapes h p f ∧ load h path start added = .error f) ∧
    ∀ p f, path = some p → p ≠ "" → Escapes h p f → load h path start added = .error f := by
  have hgiven : TextKeys (given h start added) := textKeys_given start hadded
  have hchecked : ∀ es, TextKeys es →
      let checked := ofValue (.dict (Value.onTop es (given h start added)))
      (∃ c, checked = .ok c ∧ c.Normal) ∨
        ∃ f, checked = .error f ∧ f.kind = ReportKind.configuration.name := by
    intro es hes
    rcases ofValue_dict ((textKeys_onTop hgiven).2 hes) with hc | ⟨fs, hf⟩
    · exact .inl hc
    · exact .inr ⟨_, hf, rfl⟩
  have hrefused : ∀ es, ¬TextKeys es →
      ofValue (.dict (Value.onTop es (given h start added))) = .error (.type .keywordsNotStrings) :=
    fun es hes => ofValue_dict_of_not_text (mt (textKeys_onTop hgiven).1 hes)
  constructor
  · by_cases hpath : path = none ∨ path = some ""
    · rw [load_without_file hpath]
      exact (hchecked [] rfl).imp_right .inl
    · obtain ⟨hnone, hempty⟩ := not_or.1 hpath
      obtain ⟨p, rfl⟩ := Option.ne_none_iff_exists'.1 hnone
      have hp : p ≠ "" := fun he => hempty (he ▸ rfl)
      rw [load_file hp]
      cases hfile : entriesOfFile h p with
      | error f =>
        rcases entriesOfFile_error hfile with hc | he
        · exact .inr (.inl ⟨f, rfl, hc⟩)
        · exact .inr (.inr ⟨p, f, rfl, hp, .file he, rfl⟩)
      | ok es =>
        by_cases hes : TextKeys es
        · exact (hchecked es hes).imp_right .inl
        · exact .inr (.inr ⟨p, _, rfl, hp, .keys hfile hes, hrefused es hes⟩)
  · rintro p f rfl hp hescapes
    rw [load_file hp]
    cases hescapes with
    | file hf =>
      rw [entriesOfFile_escapes hf]
      rfl
    | keys hfile hes =>
      rw [hfile]
      exact hrefused _ hes

/-- With no file, further entries are checked: an extension gets its dot. -/
theorem load_ends_extname :
    let h : Host := { cwd := "/", home := "/", runtime := default }
    let added : List (Value × Value) := [(.str "extname", .str "tpl")]
    TextKeys added ∧
      ∃ c, load h none usualStart added = .ok c ∧ c.Normal ∧ c.extname = ".tpl" := by
  intro h added
  have hadded : TextKeys added := rfl
  have hloaded : (load h none usualStart added).map Config.extname = .ok ".tpl" := by
    rfl
  obtain ⟨hends, -⟩ := load_ends h none usualStart added hadded
  rcases hends with ⟨c, hc, hnormal⟩ | ⟨f, hf, -⟩ | ⟨p, f, hp, -⟩
  · rw [hc] at hloaded
    exact ⟨hadded, c, hc, hnormal, Except.ok.inj hloaded⟩
  · rw [hf] at hloaded
    cases hloaded
  · cases hp

/-- A host with a configuration file of one octet that begins no character. -/
def hostWithOctet : Host :=
  { files := ⟨.directory [("c.yaml", .file [0xff])]⟩, cwd := "/", home := "/", runtime := default }

/-- The octets of a file escape: the fault is that of reading a text, and not one of the
configuration. -/
theorem load_octets :
    let f : Fault := .notText (.invalidStart 0xff 0)
    load hostWithOctet (some "c.yaml") usualStart [] = .error f ∧
      f.kind ≠ ReportKind.configuration.name := by
  intro f
  have hfound : Found hostWithOctet "c.yaml" "c.yaml" := ⟨rfl, rfl, by decide +kernel⟩
  have hread : hostWithOctet.readText "c.yaml" = .error (.notText (.invalidStart 0xff 0)) := rfl
  have hfile := entriesOfFile_escapes (.notText hfound hread)
  refine ⟨?_, by decide⟩
  rw [load_file (by decide), hfile]
  rfl

end Config

end CachedViews
