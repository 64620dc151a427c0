import CachedViews.Proofs.Path.Below
import CachedViews.Web.Site

/-
# Which routed views stay below the views directory

The name of a routed view has letters, digits, underscores, hyphens and slashes, so none of its
pieces is made of dots and it cannot climb. A name that does not begin with a slash therefore
leads to a file strictly below the views directory, whatever directory that is. There is one
way back to the directory itself, which only the extension `..` opens: behind a single component
and a slash it takes the component off again (`Web.LeadsUp`).

A name that begins with a slash is a path of its own. The views directory has no part in it
(`Web.viewPath_of_isAbsolute`), so such a name leads to any file with the extension.

Key definitions: `Web.namedPieces`, `Web.LeadsUp`.
Key theorems: `Web.worked_routed`, `Web.viewPath_of_isAbsolute`, `Web.routed_view_below_iff`.
-/

namespace CachedViews.Web

open CachedViews.Text

/-- The pieces of a name that say something. -/
def namedPieces (view : List Char) : List (List Char) := (splitOn '/' view).filter (· ≠ [])

/-- With two dots for an extension, a name of one component with a slash at its end leads up again
to where it started. -/
def LeadsUp (extname view : List Char) : Prop :=
  extname = ['.', '.'] ∧ view.getLast? = some '/' ∧ (namedPieces view).length = 1

instance (extname view : List Char) : Decidable (LeadsUp extname view) :=
  inferInstanceAs (Decidable (_ ∧ _ ∧ _))

variable {view extname : List Char}

/-! ### Names that a route accepts -/

theorem not_dot_of_routed (h : isRoutedView view = true) : '.' ∉ view := by
  intro hmem
  have hall := (Bool.and_eq_true_iff.1 h).2
  exact absurd (List.all_eq_true.1 hall '.' hmem) (by decide)

theorem ne_nil_of_routed (h : isRoutedView view = true) : view ≠ [] := by
  rintro rfl
  exact absurd h (by decide)

/-- The pieces of a name without dots are plain, or empty. -/
theorem clean_of_not_dot (h : '.' ∉ view) :
    ∀ x ∈ splitOn '/' view, x = [] ∨ Components.isPlain x = true := by
  intro x hx
  have hslash := not_mem_of_mem_splitOn '/' view x hx
  have hdot : '.' ∉ x := fun hmem => h (Components.mem_of_mem_splitOn hx hmem)
  by_cases hnil : x = []
  · exact .inl hnil
  · have h1 : x ≠ ['.'] := by
      rintro rfl
      exact hdot (by simp)
    have h2 : x ≠ ['.', '.'] := by
      rintro rfl
      exact hdot (by simp)
    exact .inr (by simp [Components.isPlain, hnil, h1, h2, hslash])

/-- A name without dots has no extension of its own. -/
theorem withExtension_of_not_dot {view : String} (h : '.' ∉ view.toList) (extname : String) :
    withExtension extname view = view ++ extname := by
  have hbase : '.' ∉ (Components.base view.toList).dropWhile (· = '.') := fun hmem => by
    have hmem := (List.dropWhile_sublist _).subset hmem
    rw [Components.base, List.mem_reverse] at hmem
    exact h (List.mem_reverse.1 ((List.takeWhile_sublist _).subset hmem))
  have hnone : Path.extension view = "" := by
    unfold Path.extension Components.extension
    simp [hbase]
  exact if_pos hnone

/-! ### Names that do not begin with a slash -/

/-- What is left of a name and the extension behind it, on top of a directory: its pieces, the last
one with the extension; unless there is nothing in front of the extension and that is made of
dots. -/
theorem worked_routed (hdot : '.' ∉ view) (hext : '/' ∉ extname) (stack : List (List Char)) :
    ∃ ws w, splitOn '/' view = ws ++ [w] ∧
      Components.worked stack (view ++ extname) =
        Components.push ((ws.filter (· ≠ [])).reverse ++ stack) (w ++ extname) := by
  obtain ⟨ws, w, hv, hve⟩ := Components.splitOn_append_of_not_mem hext view
  refine ⟨ws, w, hv, ?_⟩
  have hclean : ∀ x ∈ ws, x = [] ∨ Components.isPlain x = true := fun x hx =>
    clean_of_not_dot hdot x (by rw [hv]; exact List.mem_append_left _ hx)
  rw [Components.worked, hve, List.foldl_append, Components.foldl_push_of_clean hclean]
  rfl

/-- The last piece is empty if the name ends with a slash, and only then. -/
theorem last_piece_eq_nil_iff {ws : List (List Char)} {w : List Char} (hne : view ≠ [])
    (hv : splitOn '/' view = ws ++ [w]) : w = [] ↔ view.getLast? = some '/' := by
  obtain ⟨a, c, rfl⟩ := (List.eq_nil_or_concat view).resolve_left hne
  by_cases hc : c = '/'
  · rw [List.concat_eq_append, hc, Components.splitOn_append] at hv
    have hw : [[]] = [w] := List.append_inj_right' hv rfl
    simp [← List.singleton_inj.1 hw, hc]
  · have hmem : '/' ∉ [c] := by simpa using Ne.symm hc
    obtain ⟨ws', w', -, hac⟩ := Components.splitOn_append_of_not_mem hmem a
    rw [List.concat_eq_append, hac] at hv
    have hw : w' ++ [c] = w := by simpa using List.append_inj_right' hv rfl
    simp [← hw, hc]

/-- **A name that does not begin with a slash leads below the directory**, unless it leads up to the
directory itself. -/
theorem leads_below_iff (hv : isRoutedView view = true)
    (hrel : Components.isAbsolute view = false) (hext : '/' ∉ extname)
    (stack : List (List Char)) :
    (∃ more, more ≠ [] ∧
        (Components.worked stack (view ++ extname)).reverse = stack.reverse ++ more) ↔
      ¬LeadsUp extname view := by
  have hne := ne_nil_of_routed hv
  obtain ⟨ws, w, hpieces, hworked⟩ := worked_routed (not_dot_of_routed hv) hext stack
  have hlast := last_piece_eq_nil_iff hne hpieces
  rw [hworked]
  generalize hvs : ws.filter (· ≠ []) = vs
  -- a plain last piece is put behind the others
  have hplain : Components.isPlain (w ++ extname) = true → ∃ more, more ≠ [] ∧
      (Components.push (vs.reverse ++ stack) (w ++ extname)).reverse = stack.reverse ++ more :=
    fun h => ⟨vs ++ [w ++ extname], by simp, by simp [Components.push_of_plain h]⟩
  by_cases hw : w = []
  · subst hw
    -- then there is a piece in front of it
    have hvs0 : vs ≠ [] := by
      cases view with
      | nil => exact absurd rfl hne
      | cons d rest =>
        have hd : d ≠ '/' := by simpa [Components.isAbsolute_cons] using hrel
        obtain ⟨u, us, hus⟩ : ∃ u us, splitOn '/' (d :: rest) = (d :: u) :: us := by
          unfold splitOn
          rw [if_neg hd]
          split <;> exact ⟨_, _, rfl⟩
        rw [hus] at hpieces
        cases ws with
        | nil => cases hpieces
        | cons x ws =>
          obtain rfl := (List.cons.inj hpieces).1
          rw [← hvs]
          simp
    have hnamed : namedPieces view = vs := by
      rw [← hvs]
      simp [namedPieces, hpieces]
    simp only [List.nil_append] at hplain ⊢
    by_cases hup : extname = ['.', '.']
    · -- two dots take the last piece off again
      obtain ⟨us, u, rfl⟩ := (List.eq_nil_or_concat vs).resolve_left hvs0
      simp only [LeadsUp, hup, hnamed, hlast.1 rfl, true_and, List.concat_eq_append]
      have htail : (Components.push ((us ++ [u]).reverse ++ stack) ['.', '.']).reverse =
          stack.reverse ++ us := by simp [Components.push]
      rw [htail]
      constructor
      · rintro ⟨more, hmore, he⟩
        rw [← List.append_cancel_left he] at hmore
        simpa using hmore
      · intro hlen
        exact ⟨us, by simpa using hlen, rfl⟩
    · refine iff_of_true ?_ fun h => hup h.1
      by_cases hnone : extname = [] ∨ extname = ['.']
      · exact ⟨vs, hvs0, by simp [Components.push, hnone]⟩
      · rw [not_or] at hnone
        exact hplain (by simp [Components.isPlain, hnone, hup, hext])
  · refine iff_of_true (hplain ?_) fun h => hw (hlast.2 h.2.1)
    -- its first character is no dot
    obtain ⟨c, w, rfl⟩ := List.exists_cons_of_ne_nil hw
    have hmem : (c :: w) ∈ splitOn '/' view := by simp [hpieces]
    have hc : c ≠ '.' := fun hc => not_dot_of_routed hv
      (Components.mem_of_mem_splitOn hmem (hc ▸ List.mem_cons_self))
    have hslash := not_mem_of_mem_splitOn '/' view _ hmem
    simp_all [Components.isPlain]

/-! ### Names that begin with a slash -/

/-- **A name that begins with a slash is a path of its own**: the views directory has no part in
the file that it leads to. -/
theorem viewPath_of_isAbsolute {view : String} (hdot : '.' ∉ view.toList)
    (habs : Path.isAbsolute view = true) (cwd extname views : String) :
    viewPath cwd extname views view = Path.absolute cwd (view ++ extname) := by
  have hjoin : Path.join views (view ++ extname) = view ++ extname := by
    have happ : Components.isAbsolute (view ++ extname).toList = true := by
      unfold Path.isAbsolute at habs
      rw [String.toList_append]
      cases hv : view.toList with
      | nil => simp [hv, Components.isAbsolute] at habs
      | cons c cs => simpa [hv, Components.isAbsolute_cons] using habs
    unfold Path.join Components.join
    rw [if_pos happ, String.ofList_toList]
  rw [viewPath, withExtension_of_not_dot hdot, hjoin]

/-! ### The files of routed views -/

/-- **Where the names that the route accepts lead.** A name that does not begin with a slash leads
to a file strictly below the views directory, unless it leads up to the directory itself. A name
that begins with a slash leads to the file of that path, and so below the directory only if the
path itself says so. -/
theorem routed_view_below_iff (s : Site) (view : String)
    (hview : isRoutedView view.toList = true)
    (hext : '/' ∉ s.engine.config.extname.toList) :
    viewOfPath? s.defaultView ("/" ++ view) = some view ∧
      (Path.isAbsolute view = false →
        (Path.Below (Path.absolute s.engine.cwd s.views) (s.viewFile view) ↔
          ¬LeadsUp s.engine.config.extname.toList view.toList)) ∧
      (Path.isAbsolute view = true →
        s.viewFile view = Path.absolute s.engine.cwd (view ++ s.engine.config.extname)) := by
  have hdot := not_dot_of_routed hview
  refine ⟨?_, fun hrel => ?_, fun habs => viewPath_of_isAbsolute hdot habs _ _ _⟩
  · obtain ⟨c, cs, hc⟩ := List.exists_cons_of_ne_nil (ne_nil_of_routed hview)
    have hroute : ("/" ++ view).toList = '/' :: c :: cs := by simp [hc]
    have hname : isRoutedView (c :: cs) = true := hc ▸ hview
    unfold viewOfPath?
    rw [hroute]
    simp only [hname, if_true]
    rw [← hc, String.ofList_toList]
  · rw [Site.viewFile, viewPath, withExtension_of_not_dot hdot, Path.below_iff rfl rfl]
    have hjoin : (Path.join s.views (view ++ s.engine.config.extname)).toList =
        Components.join s.views.toList (view.toList ++ s.engine.config.extname.toList) := by
      simp [Path.join]
    have hrel' : Components.isAbsolute (view.toList ++ s.engine.config.extname.toList) = false := by
      obtain ⟨c, cs, hc⟩ := List.exists_cons_of_ne_nil (ne_nil_of_routed hview)
      simpa [Path.isAbsolute, hc, Components.isAbsolute_cons] using hrel
    rw [hjoin, Components.parts_eq, Components.parts_eq, Components.worked_join_join hrel']
    exact leads_below_iff hview hrel hext _

/-! ### A site with a file beside its views -/

/-- A site with one view and a directory for partials, and a file that is no view of it. -/
def besideTree : FileTree where
  root := .directory
    [("srv", .directory [("views", .directory
        [("home.html", .file (encodeUtf8 "home".toList)), ("partials", .directory [])])]),
      ("etc", .directory [("motd.html", .file (encodeUtf8 "outside".toList))])]

def besideSite : Site := Site.create { config := {}, cwd := "/", runtime := .closed 10 } "srv/views"

/-- A name with an empty piece leads below the views directory, for all that it has two slashes. -/
theorem routed_view_below_iff_beside :
    isRoutedView "people//ann".toList = true ∧
      '/' ∉ besideSite.engine.config.extname.toList ∧
      Path.Below "/srv/views" (besideSite.viewFile "people//ann") := by
  have hview : isRoutedView "people//ann".toList = true := by decide
  have hext : '/' ∉ besideSite.engine.config.extname.toList := by decide
  have hdir : Path.absolute besideSite.engine.cwd besideSite.views = "/srv/views" := by
    decide +kernel
  obtain ⟨-, hbelow, -⟩ := routed_view_below_iff besideSite "people//ann" hview hext
  refine ⟨hview, hext, ?_⟩
  rw [← hdir]
  exact (hbelow (by decide)).2 (by decide)

/-- The route accepts a name that begins with a slash. It leads out of the views directory, and
the site answers with the file that it finds there. -/
theorem routed_view_escapes :
    viewOfPath? besideSite.defaultView "//etc/motd" = some "/etc/motd" ∧
      isRoutedView "/etc/motd".toList = true ∧
      '/' ∉ besideSite.engine.config.extname.toList ∧
      besideSite.viewFile "/etc/motd" = "/etc/motd.html" ∧
      ¬Path.Below (Path.absolute besideSite.engine.cwd besideSite.views)
        (besideSite.viewFile "/etc/motd") ∧
      (renderPage (some besideSite) besideTree { view := "/etc/motd" } {}).1.toOption.map
        (·.text) = some "outside" := by
  have hfile : besideSite.viewFile "/etc/motd" = "/etc/motd.html" := by decide +kernel
  refine ⟨by decide +kernel, by decide, by decide, hfile, ?_, by decide +kernel⟩
  rintro ⟨more, -, he⟩
  have hcomponents : Path.components (besideSite.viewFile "/etc/motd") = ["etc", "motd.html"] := by
    decide +kernel
  have hviews : Path.components (Path.absolute besideSite.engine.cwd besideSite.views) =
      ["srv", "views"] := by decide +kernel
  rw [hcomponents, hviews] at he
  exact absurd (List.cons.inj he).1 (by decide)

end CachedViews.Web
