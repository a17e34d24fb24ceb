import BladeForm.Proofs.Config.Prefix
import BladeForm.Proofs.View.Destination

/-!
Routes and views under one prefix. The name of a view reads the prefix segment by segment, between
slashes, dots and backslashes; the name of a route takes it as it stands. Both are the same names
in the same order exactly if there is nothing between the segments but single dots.
-/
namespace BladeForm

namespace Destination
open Text (IsBare joinWith splitAtEach)

/-- No segment ends but at a dot, and none is empty between two dots. -/
structure Dotted (cs : List Char) : Prop where
  slash : '/' ∉ cs
  backslash : '\\' ∉ cs
  dots : ¬ ['.', '.'] <:+: cs

variable {cs : List Char}

theorem dotted_end (dotted : Dotted cs) : ∀ c ∈ cs, isSegmentEnd c = true → c = '.' := by
  intro c member ends
  simp only [isSegmentEnd, Bool.or_eq_true, decide_eq_true_eq] at ends
  rcases ends with (rfl | dot) | rfl
  · exact absurd member dotted.slash
  · exact dot
  · exact absurd member dotted.backslash

theorem dotted_pieces (dotted : Dotted cs) (nonempty : cs ≠ [])
    (bare : IsBare Options.isRouteEdge cs) : [] ∉ splitAtEach isSegmentEnd cs := by
  intro empty
  have edge : Options.isRouteEdge '.' = true := by decide
  have joined := Text.joinWith_splitAtEach (dotted_end dotted)
  obtain ⟨before, after, pieces⟩ := List.append_of_mem empty
  rw [pieces] at joined
  by_cases none : before = []
  · subst none
    cases after with
    | nil => exact nonempty joined.symm
    | cons next rest =>
      have first : cs.head? = some '.' := by rw [← joined]; rfl
      rw [bare.first '.' first] at edge
      contradiction
  · rw [Text.joinWith_append _ none (List.cons_ne_nil [] after)] at joined
    cases after with
    | nil =>
      have last : cs.getLast? = some '.' := by rw [← joined]; simp [joinWith]
      rw [bare.last '.' last] at edge
      contradiction
    | cons next rest =>
      refine dotted.dots ⟨joinWith ['.'] before, joinWith ['.'] (next :: rest), ?_⟩
      rw [← joined]
      simp [joinWith]

theorem joined_dotted {names : List (List Char)}
    (plain : ∀ n ∈ names, n ≠ [] ∧ ∀ c ∈ n, isSegmentEnd c = false) :
    Dotted (joinWith ['.'] names) := by
  have only : ∀ c ∈ joinWith ['.'] names, isSegmentEnd c = true → c = '.' := by
    intro c member ends
    rcases Name.mem_joinWith member with dot | ⟨n, inside, there⟩
    · exact List.mem_singleton.1 dot
    · rw [(plain n inside).2 c there] at ends
      contradiction
  refine ⟨fun member => absurd (only '/' member rfl) (by decide),
    fun member => absurd (only '\\' member rfl) (by decide), ?_⟩
  rintro ⟨before, after, same⟩
  have some : names ≠ [] := by
    rintro rfl
    simp [joinWith] at same
  have split := Text.splitAtEach_joinWith (p := isSegmentEnd) (c := '.') rfl some
    fun n inside => (plain n inside).2
  rw [← same, List.append_assoc, List.cons_append, Text.splitAtEach_append rfl,
    List.singleton_append, Text.splitAtEach_separator rfl] at split
  have empty : [] ∈ names := by simp [← split]
  exact (plain [] empty).1 rfl

/-- With a dot between them the segments of a text are the text again, or something was lost. -/
theorem segments_joined_iff (nonempty : cs ≠ []) (bare : IsBare Options.isRouteEdge cs) :
    joinWith ['.'] ((splitAtEach isSegmentEnd cs).filter (!·.isEmpty)) = cs ↔ Dotted cs := by
  constructor
  · intro same
    rw [← same]
    refine joined_dotted fun n member => ?_
    obtain ⟨piece, some⟩ := List.mem_filter.1 member
    exact ⟨by simpa using some, Text.mem_splitAtEach piece⟩
  · intro dotted
    have none := dotted_pieces dotted nonempty bare
    rw [List.filter_eq_self.2 ?_, Text.joinWith_splitAtEach (dotted_end dotted)]
    intro n member
    have some : n ≠ [] := by
      rintro rfl
      exact none member
    simpa using some

theorem toList_dotted (names : List (List Char)) :
    (".".intercalate (names.map String.ofList)).toList = joinWith ['.'] names := by
  induction names with
  | nil => rfl
  | cons n rest ih =>
    cases rest with
    | nil => simp [joinWith]
    | cons next rest =>
      simp only [List.map_cons] at ih ⊢
      rw [String.intercalate_cons_cons, String.toList_append, String.toList_append, ih]
      simp [joinWith]

theorem optionSegments_joined_iff {p : String} (nonempty : p ≠ "")
    (bare : IsBare Options.isRouteEdge p.toList) :
    ".".intercalate (optionSegments p) = p ↔ Dotted p.toList := by
  rw [← String.toList_inj, optionSegments, toList_dotted]
  exact segments_joined_iff (fun empty => nonempty (String.toList_inj.1 empty)) bare

theorem joined_below_iff {p : String} {names : List String} (some : p ≠ "")
    (plural action : String) :
    p ++ "." ++ (plural ++ "." ++ action) = ".".intercalate (names ++ [plural] ++ [action])
      ↔ ".".intercalate names = p := by
  have last : ".".intercalate [plural, action] = plural ++ "." ++ action := by
    rw [String.intercalate_cons_cons, String.intercalate_singleton]
  rw [List.append_assoc, List.singleton_append]
  by_cases none : names = []
  · rw [none, List.nil_append, last, String.intercalate_nil]
    constructor
    · intro same
      have longer := congrArg String.length same
      simp at longer
    · intro empty
      exact absurd empty.symm some
  · rw [String.intercalate_append_of_ne_nil none (List.cons_ne_nil _ _), last,
      String.append_left_inj, String.append_left_inj, eq_comm]

end Destination

namespace Settings
open Destination

def viewBase (s : Settings) : String :=
  ".".intercalate (segments none s.routesPrefix s.modelName ++ [""])

theorem viewBase_append (s : Settings) (last : String) :
    s.viewBase ++ last
      = ".".intercalate (segments none s.routesPrefix s.modelName ++ [last]) := by
  rw [viewBase, intercalate_last, String.empty_append]

theorem routeName_none {s : Settings} (none : s.routesPrefix = none) (action : String) :
    s.routeName action = Name.pluralSnake s.modelName ++ "." ++ action := by
  rw [routeName, none]
  rfl

theorem routeName_some {s : Settings} {p : String} (given : s.routesPrefix = some p)
    (action : String) :
    s.routeName action = p ++ "." ++ (Name.pluralSnake s.modelName ++ "." ++ action) := by
  rw [routeName, given]
  rfl

/-- Route names and view names read a settled prefix the same way, for one action as for all, if
    and only if nothing stands between its segments but single dots. -/
theorem route_reads_prefix_iff {o : Options} {c : Config} {s : Settings}
    (settled : o.settle c = .ok s) :
    viewName none s.routesPrefix s.modelName = s.viewBase ++ "form" ∧
    ∀ action,
      s.viewBase ++ action = ".".intercalate (segments none s.routesPrefix s.modelName ++ [action]) ∧
      (s.routeName action = s.viewBase ++ action ↔ ∀ p ∈ s.routesPrefix, Dotted p.toList) := by
  refine ⟨(s.viewBase_append "form").symm, fun action => ⟨s.viewBase_append action, ?_⟩⟩
  rw [viewBase_append, segments]
  cases given : s.routesPrefix with
  | none =>
    rw [routeName_none given]
    simp
  | some p =>
    obtain ⟨some, bare⟩ := Options.settled_edge settled p given
    simp only [Option.mem_some_iff, forall_eq', Option.map_none, Option.map_some,
      Option.getD_none, Option.getD_some, List.nil_append]
    rw [routeName_some given, joined_below_iff some, optionSegments_joined_iff some bare]

theorem dotted_prefix_followed :
    (Options.adminOptions "admin.shop").settle {}
      = .ok (Options.adminSettings (some "admin.shop")) ∧
    ∀ action, (Options.adminSettings (some "admin.shop")).routeName action
      = "admin.shop.posts." ++ action := by
  have settled : (Options.adminOptions "admin.shop").settle {}
      = .ok (Options.adminSettings (some "admin.shop")) := ok_of_toOption (by decide +kernel)
  have dotted : ∀ p ∈ (Options.adminSettings (some "admin.shop")).routesPrefix,
      Dotted p.toList := by
    rintro _ ⟨⟩
    exact ⟨by decide +kernel, by decide +kernel, by decide +kernel⟩
  have base : (Options.adminSettings (some "admin.shop")).viewBase = "admin.shop.posts." := by
    decide +kernel
  refine ⟨settled, fun action => ?_⟩
  rw [← base]
  exact ((route_reads_prefix_iff settled).2 action).2.2 dotted

/-- A slash in the prefix ends a segment of the view and stays in the name of the route. -/
theorem slashed_prefix_stays :
    (Options.adminOptions "admin/shop").settle {}
      = .ok (Options.adminSettings (some "admin/shop")) ∧
    (Options.adminSettings (some "admin/shop")).routeName "store" = "admin/shop.posts.store" ∧
    ".".intercalate (segments none (some "admin/shop") "Post" ++ ["store"])
      = "admin.shop.posts.store" ∧
    viewName none (some "admin/shop") "Post" = "admin.shop.posts.form" ∧
    "admin/shop.posts.store" ≠ "admin.shop.posts.store" :=
  ⟨ok_of_toOption (by decide +kernel), by decide +kernel, by decide +kernel, by decide +kernel,
    by decide⟩

end Settings

end BladeForm
