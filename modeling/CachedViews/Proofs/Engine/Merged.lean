import CachedViews.Proofs.Engine.Composition

/-
# Sources are merged in their order

What sources give is put into one mapping, source after source, and in a source entry after
entry, each under its name as a partial. Different entries may have one name: in two sources,
below different namespaces, or in one source with and without the extension. Then the last one
wins, at the place of the first one (`Engine.LastWins`).

If all sources of a list can be looked up (`Engine.SourceGives`), its partials are forecast to be
what its entries leave (`Engine.partialsForecast_of_gives`).

Key definitions: `Engine.LastWins`, `Engine.SourceGives`, `Engine.namedEntries`.
Key theorems: `Engine.lastWins_overlay`, `Engine.merge_eq_overlay`,
`Engine.partialsForecast_of_gives`.
-/

namespace CachedViews.Engine

/-- What is left of entries that are put in one after the other. Each name is there once, in the
order in which the names are met first, and stands for the last entry that has it. So what is
put in later changes neither the order of the names before nor what other names stand for. -/
structure LastWins {α : Type} (all merged : List (String × α)) : Prop where
  names : merged.map Prod.fst = (all.map Prod.fst).eraseDups
  values : ∀ name, merged.lookup name = all.reverse.lookup name
  later : ∀ before after, all = before ++ after →
    (before.map Prod.fst).eraseDups <+: merged.map Prod.fst ∧
      ∀ name, name ∉ after.map Prod.fst → merged.lookup name = before.reverse.lookup name

/-- **Fields that are put in one after the other leave the last of each name.** -/
theorem lastWins_overlay {α : Type} (all : List (String × α)) :
    LastWins all (Value.overlay [] all) := by
  have hnames : (Value.overlay [] all).map Prod.fst = (all.map Prod.fst).eraseDups := by
    rw [names_overlay]
    simp
  have hvalues : ∀ name, (Value.overlay [] all).lookup name = all.reverse.lookup name := by
    intro name
    rw [lookup_overlay_last, List.lookup_nil, Option.or_none]
  refine ⟨hnames, hvalues, fun before after hall => ⟨?_, fun name hname => ?_⟩⟩
  · rw [hnames, hall, List.map_append, List.eraseDups_append]
    exact List.prefix_append _ _
  · have hnone : after.reverse.lookup name = none :=
      lookup_eq_none_of_not_mem fun f hf he =>
        hname (List.mem_map.2 ⟨f, List.mem_reverse.1 hf, he⟩)
    rw [hvalues, hall, List.reverse_append, List.lookup_append, hnone, Option.none_or]

/-! ### Merging -/

/-- What sources give, under the names as partials, in order. -/
def namedEntries {α : Type} (extname : String) (given : List (Source × List (String × α))) :
    List (String × α) :=
  given.flatMap fun (s, entries) =>
    entries.map fun (key, v) => (partialName key s.namesp extname, v)

variable {e : Engine} {L : Lookups}

/-- **Merging puts in all entries of all sources**, one after the other. -/
theorem merge_eq_overlay (extname : String) {given : List (Source × List (String × Handle))}
    {products : List Product}
    (h : List.Forall₂ (fun g p => namedTemplates p = .ok g.2) given products)
    (merged : List (String × Handle)) :
    merge extname ((given.map Prod.fst).zip products) merged =
      .ok (Value.overlay merged (namedEntries extname given)) := by
  induction h generalizing merged with
  | nil => rfl
  | @cons g p given products hg _ ih =>
    obtain ⟨s, entries⟩ := g
    rw [List.map_cons, List.zip_cons_cons, merge, hg]
    have hcons : namedEntries extname ((s, entries) :: given) =
        entries.map (fun f => (partialName f.1 s.namesp extname, f.2)) ++
          namedEntries extname given := List.flatMap_cons ..
    refine (ih _).trans ?_
    rw [hcons, Value.overlay, Value.overlay, List.foldl_append, List.foldl_map]

/-! ### What sources give -/

/-- The lookups of a source succeed, and these are its templates under their keys. A directory
gives a template for each name that is listed. A mapping with texts for keys gives its own
entries, at once or as the result of a future. -/
inductive SourceGives (e : Engine) (L : Lookups) : Source → List (String × Value) → Prop
  | directory {path : String} {namesp : Option String} {names : List String}
      {found : List Value} (hnames : L.names (Path.absolute e.cwd path) = .ok names)
      (hfound : List.Forall₂
        (fun f v => e.Gives L (Path.absolute e.cwd (Path.join path f)) v) names found) :
      SourceGives e L (.directory path namesp) (names.zip found)
  | mapping {templates : Value} {fields : List (Value × Value)} {namesp : Option String}
      {entries : List (String × Value)}
      (ht : templates = .dict fields ∨ templates = .future (.dict fields))
      (hentries : List.Forall₂ (fun f g => f.1.string? = some g.1 ∧ f.2 = g.2) fields entries) :
      SourceGives e L (.templates templates namesp) entries

theorem named_ofFields (entries : List (String × Value)) :
    List.Forall₂ (fun f g => f.1.string? = some g.1 ∧ f.2 = g.2)
      (entries.map fun (k, v) => (Value.str k, v)) entries :=
  List.forall₂_map_left_iff.2 (List.forall₂_same.2 fun _ _ => ⟨rfl, rfl⟩)

/-- Named templates, without numbers of compilations. -/
def handled (entries : List (String × Value)) : List (String × Handle) :=
  entries.map fun (key, v) => (key, ⟨none, v⟩)

theorem givenTemplates_of_forall {fields : List (Value × Value)} {entries : List (String × Value)}
    (h : List.Forall₂ (fun f g => f.1.string? = some g.1 ∧ f.2 = g.2) fields entries) :
    givenTemplates fields = .ok (handled entries) := by
  induction h with
  | nil => rfl
  | @cons f g fields entries hf _ ih =>
    obtain ⟨k, v⟩ := f
    obtain ⟨key, v'⟩ := g
    obtain ⟨hk, rfl⟩ : k.string? = some key ∧ v = v' := hf
    rw [givenTemplates, hk]
    simp only [ih]
    rfl

theorem templateForecast_of_gives {file : String} {v : Value}
    (h : e.Gives L (Path.absolute e.cwd file) v) :
    e.templateForecast L (.str file) = .ok (.template ⟨none, v⟩) := by
  obtain ⟨text, htext, hc⟩ := h
  exact compileForecast_of_ok htext hc

/-- A directory whose files all give templates is forecast to give these. -/
theorem templatesForecast_of_gives {path : String} {names : List String} {found : List Value}
    (hnames : L.names (Path.absolute e.cwd path) = .ok names)
    (hfound : List.Forall₂
      (fun f v => e.Gives L (Path.absolute e.cwd (Path.join path f)) v) names found) :
    e.templatesForecast L (.str path) = .ok (.templates (handled (names.zip found))) := by
  have hall : Forecast.all (names.map fun f => e.templateForecast L (.str (Path.join path f))) =
      .ok (found.map fun v => .template ⟨none, v⟩) :=
    Forecast.all_eq_ok (List.forall₂_map_right_iff.2
      (hfound.imp fun f v hv => templateForecast_of_gives hv))
  have hkey : Forecast.of (e.keyOf (.str path)) = .ok (Path.absolute e.cwd path) := rfl
  have hhandled : handled (names.zip found) = names.zip (found.map fun v => ⟨none, v⟩) := by
    rw [handled, List.zip_map_right]
    rfl
  rw [hhandled]
  simp only [templatesForecast, hkey, namesForecast_of_ok hnames, bind, Except.bind,
    Product.asNames, Value.text, hall, pure, Except.pure, List.map_map]
  rfl

/-- A source whose lookups succeed is forecast to give its templates. -/
theorem sourceForecast_of_gives {s : Source} {entries : List (String × Value)}
    (h : e.SourceGives L s entries) :
    ∃ p, e.sourceForecast L s = .ok p ∧ namedTemplates p = .ok (handled entries) := by
  cases h with
  | directory hnames hfound => exact ⟨_, templatesForecast_of_gives hnames hfound, rfl⟩
  | @mapping templates fields namesp entries ht hentries =>
    refine ⟨.given (.dict fields), ?_, givenTemplates_of_forall hentries⟩
    rcases ht with rfl | rfl <;> rfl

theorem namedEntries_handled (extname : String) (given : List (Source × List (String × Value))) :
    namedEntries extname (given.map fun (s, entries) => (s, handled entries)) =
      handled (namedEntries extname given) := by
  rw [namedEntries, namedEntries, handled, List.map_flatMap, List.flatMap_map]
  congr 1
  funext ⟨s, entries⟩
  simp only [handled, List.map_map]
  rfl

/-- **Sources whose lookups succeed are forecast to be merged.** -/
theorem partialsForecast_of_gives {sources : Value} {given : List (Source × List (String × Value))}
    (hs : (entriesOf sources).mapM Source.ofEntry = .ok (given.map Prod.fst))
    (hg : ∀ g ∈ given, e.SourceGives L g.1 g.2) :
    e.partialsForecast L sources = .ok (.templates
      (handled (Value.overlay [] (namedEntries e.config.extname given)))) := by
  have hproducts : ∀ given : List (Source × List (String × Value)),
      (∀ g ∈ given, e.SourceGives L g.1 g.2) → ∃ products : List Product,
        List.Forall₂ (fun s p => e.sourceForecast L s = .ok p) (given.map Prod.fst) products ∧
        List.Forall₂ (fun g p => namedTemplates p = .ok g.2)
          (given.map fun (s, entries) => (s, handled entries)) products := by
    intro given hg
    induction given with
    | nil => exact ⟨[], .nil, .nil⟩
    | cons g given ih =>
      obtain ⟨products, hforecast, hnamed⟩ := ih fun g' hg' => hg g' (List.mem_cons_of_mem _ hg')
      obtain ⟨p, hp, hn⟩ := sourceForecast_of_gives (hg g List.mem_cons_self)
      exact ⟨p :: products, .cons hp hforecast, .cons hn hnamed⟩
  obtain ⟨products, hforecast, hnamed⟩ := hproducts given hg
  have hsources : (given.map fun (s, entries) => (s, handled entries)).map Prod.fst =
      given.map Prod.fst := by
    rw [List.map_map]
    rfl
  have hmerge := merge_eq_overlay e.config.extname hnamed []
  rw [hsources, namedEntries_handled] at hmerge
  have hhandled : handled (Value.overlay [] (namedEntries e.config.extname given)) =
      Value.overlay [] (handled (namedEntries e.config.extname given)) := overlay_map _ [] _
  have hof : Forecast.of ((entriesOf sources).mapM Source.ofEntry) = .ok (given.map Prod.fst) :=
    Forecast.of_eq_ok.2 hs
  simp only [partialsForecast, hof, bind, Except.bind, Forecast.all_eq_ok hforecast]
  rw [hmerge, hhandled]
  rfl

end CachedViews.Engine
