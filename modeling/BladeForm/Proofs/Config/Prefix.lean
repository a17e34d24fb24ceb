import BladeForm.Config.Options
import BladeForm.Proofs.Basic
import BladeForm.Proofs.Strip

/-!
What is left of a routes prefix. Blanks are taken from its ends first, slashes and dots second and
blanks never again, so a blank that stood behind a slash stays. What is left has neither at its
ends, and settling it once more changes nothing, if and only if the prefix came in these two layers.
-/
namespace BladeForm

namespace Options
open Text (IsBare Surrounded strip)

def isOuter (c : Char) : Bool := Text.isBlank c || isRouteEdge c

/-- What both steps leave of a prefix. -/
def leftOver (cs : List Char) : List Char := strip isRouteEdge (strip Text.isBlank cs)

/-- Blanks outside, slashes and dots next to them, and a core that neither begins nor ends with
    any of these. -/
structure Layers (cs blanks edges core edges' blanks' : List Char) : Prop where
  split : cs = blanks ++ ((edges ++ (core ++ edges')) ++ blanks')
  blank : blanks.all Text.isBlank = true ∧ blanks'.all Text.isBlank = true
  edge : edges.all isRouteEdge = true ∧ edges'.all isRouteEdge = true
  bare : IsBare isOuter core

def Layered (prefixText : String) : Prop :=
  ∃ blanks edges core edges' blanks',
    Layers prefixText.toList blanks edges core edges' blanks'

variable {cs blanks edges core edges' blanks' : List Char}

theorem bare_outer_iff : IsBare isOuter cs ↔ IsBare Text.isBlank cs ∧ IsBare isRouteEdge cs :=
  Text.bare_or_iff

theorem edge_not_blank {c : Char} (edge : isRouteEdge c = true) : Text.isBlank c = false := by
  rw [isRouteEdge, Bool.or_eq_true, decide_eq_true_eq, decide_eq_true_eq] at edge
  rcases edge with rfl | rfl <;> decide

theorem edges_bare (all : edges.all isRouteEdge = true) : IsBare Text.isBlank edges :=
  Text.bare_of_free fun c member => edge_not_blank (List.all_eq_true.1 all c member)

theorem leftOver_edge (cs : List Char) : IsBare isRouteEdge (leftOver cs) := Text.strip_bare _ _

theorem leftOver_layers (layers : Layers cs blanks edges core edges' blanks') :
    leftOver cs = core := by
  have ⟨coreBlank, coreEdge⟩ := bare_outer_iff.1 layers.bare
  have inner : IsBare Text.isBlank (edges ++ (core ++ edges')) :=
    Text.bare_append (edges_bare layers.edge.1)
      (Text.bare_append coreBlank (edges_bare layers.edge.2))
  rw [leftOver, Text.surrounded_strip ⟨layers.split, layers.blank.1, layers.blank.2, inner⟩]
  exact Text.surrounded_strip ⟨rfl, layers.edge.1, layers.edge.2, coreEdge⟩

/-- Both steps take layers; only the core need not be bare of both. -/
theorem layered_iff {s : String} : Layered s ↔ IsBare isOuter (leftOver s.toList) := by
  constructor
  · rintro ⟨_, _, core, _, _, layers⟩
    rw [leftOver_layers layers]
    exact layers.bare
  · intro bare
    obtain ⟨blanks, blanks', outer⟩ := Text.strip_surrounded Text.isBlank s.toList
    obtain ⟨edges, edges', inner⟩ :=
      Text.strip_surrounded isRouteEdge (strip Text.isBlank s.toList)
    refine ⟨blanks, edges, leftOver s.toList, edges', blanks', ?_,
      ⟨outer.front_all, outer.back_all⟩, ⟨inner.front_all, inner.back_all⟩, bare⟩
    rw [leftOver, ← inner.split]
    exact outer.split

theorem leftOver_self_iff : leftOver (leftOver cs) = leftOver cs ↔ IsBare isOuter (leftOver cs) := by
  rw [bare_outer_iff, and_iff_left (leftOver_edge cs)]
  constructor
  · intro same
    have less := Text.strip_sublist Text.isBlank (leftOver cs)
    have least := Text.strip_sublist isRouteEdge (strip Text.isBlank (leftOver cs))
    rw [← leftOver, same] at least
    exact Text.strip_self_iff.1 (less.antisymm least)
  · intro blank
    rw [leftOver, Text.strip_self_iff.2 blank, Text.strip_self_iff.2 (leftOver_edge cs)]

theorem leftOver_nil_iff (all : cs.all isOuter = true) :
    leftOver cs = [] ↔ IsBare isOuter (leftOver cs) := by
  constructor
  · intro none
    rw [none]
    exact Text.bare_nil
  · intro bare
    have less : (leftOver cs).Sublist cs :=
      (Text.strip_sublist _ _).trans (Text.strip_sublist _ _)
    rw [← Text.strip_self_iff.2 bare]
    exact Text.strip_all (List.all_eq_true.2 fun c member =>
      List.all_eq_true.1 all c (less.subset member))

def given? (cs : List Char) : Option String :=
  let kept := String.ofList cs
  if kept = "" then none else some kept

theorem given_nil : given? [] = none := rfl

theorem given_some (nonempty : cs ≠ []) : given? cs = some (String.ofList cs) := by
  rw [given?, if_neg]
  intro empty
  rw [← String.toList_inj, String.toList_ofList] at empty
  exact nonempty empty

theorem given_ne : ∀ p ∈ given? cs, p ≠ "" := by
  intro p member
  rw [given?, Option.mem_def, Option.ite_none_left_eq_some] at member
  obtain ⟨nonempty, same⟩ := member
  rw [← Option.some.inj same]
  exact nonempty

theorem given_chars (cs : List Char) : (given? cs).elim [] String.toList = cs := by
  by_cases empty : cs = []
  · rw [empty, given_nil, Option.elim_none]
  · rw [given_some empty, Option.elim_some, String.toList_ofList]

theorem given_inj {ds : List Char} : given? cs = given? ds ↔ cs = ds := by
  constructor
  · intro same
    rw [← given_chars cs, same, given_chars]
  · rintro rfl
    rfl

theorem forall_given {P : List Char → Prop} (empty : P []) :
    (∀ p ∈ given? cs, P p.toList) ↔ P cs := by
  by_cases none : cs = []
  · simp [none, given_nil, empty]
  · simp [given_some none]

theorem given_bind (step : List Char → List Char) (empty : step [] = []) :
    ((given? cs).bind fun p => given? (step p.toList)) = given? (step cs) := by
  by_cases none : cs = []
  · rw [none, given_nil, Option.bind_none, empty, given_nil]
  · rw [given_some none, Option.bind_some, String.toList_ofList]

theorem trimRoute_nonBlank (r : Option String) :
    (nonBlank r).bind trimRoute = r.bind fun p => given? (leftOver p.toList) := by
  cases r with
  | none => rfl
  | some p => exact given_bind (strip isRouteEdge) rfl

theorem settle_routes {o : Options} {c : Config} {s : Settings} (settled : o.settle c = .ok s)
    (r : Option String) :
    ({ o with routesPrefix := r } : Options).settle c
      = .ok { s with routesPrefix := r.bind fun p => given? (leftOver p.toList) } := by
  simp only [settle] at settled ⊢
  split_ifs at settled ⊢
  cases settled
  rw [trimRoute_nonBlank]

theorem settled_routes {o : Options} {c : Config} {s : Settings} (settled : o.settle c = .ok s) :
    s.routesPrefix = o.routesPrefix.bind fun p => given? (leftOver p.toList) := by
  have again := settle_routes settled o.routesPrefix
  rw [settled] at again
  exact congrArg Settings.routesPrefix (Except.ok.inj again)

theorem settled_edge {o : Options} {c : Config} {s : Settings} (settled : o.settle c = .ok s) :
    ∀ p ∈ s.routesPrefix, p ≠ "" ∧ IsBare isRouteEdge p.toList := by
  intro p member
  rw [settled_routes settled, Option.mem_def, Option.bind_eq_some_iff] at member
  obtain ⟨r, _, left⟩ := member
  exact ⟨given_ne p left, (forall_given Text.bare_nil).2 (leftOver_edge r.toList) p left⟩

/-- No settled prefix is empty or begins or ends with a slash or a dot. That it has no blank at its
    ends either, that settling it again changes nothing and, for a prefix of such characters alone,
    that none is left: each of these holds exactly if the prefix came in layers. -/
theorem prefix_settled_iff {o : Options} {c : Config} {s : Settings}
    (settled : o.settle c = .ok s) :
    (∀ p ∈ s.routesPrefix, p ≠ "" ∧ IsBare isRouteEdge p.toList) ∧
    ((∀ p ∈ s.routesPrefix, IsBare isOuter p.toList) ↔ ∀ r ∈ o.routesPrefix, Layered r) ∧
    (({ o with routesPrefix := s.routesPrefix } : Options).settle c = .ok s
      ↔ ∀ r ∈ o.routesPrefix, Layered r) ∧
    ((∀ r ∈ o.routesPrefix, r.toList.all isOuter = true) →
      (s.routesPrefix = none ↔ ∀ r ∈ o.routesPrefix, Layered r)) := by
  have stored := settled_routes settled
  have same : ∀ x, ({ s with routesPrefix := x } : Settings) = s ↔ x = s.routesPrefix :=
    fun x => ⟨fun h => by rw [← h], fun h => by rw [h]⟩
  rw [settle_routes settled, Except.ok.injEq, same]
  refine ⟨settled_edge settled, ?_⟩
  cases given : o.routesPrefix with
  | none =>
    rw [given, Option.bind_none] at stored
    simp [stored]
  | some r =>
    rw [given, Option.bind_some] at stored
    have again : (s.routesPrefix.bind fun p => given? (leftOver p.toList))
        = given? (leftOver (leftOver r.toList)) := by
      rw [stored]
      exact given_bind leftOver rfl
    simp only [Option.mem_some_iff, forall_eq']
    refine ⟨?_, ?_, ?_⟩
    · rw [layered_iff, stored]
      exact forall_given Text.bare_nil
    · rw [layered_iff, again, stored, given_inj, leftOver_self_iff]
    · intro all
      rw [layered_iff, ← leftOver_nil_iff all, stored, ← given_nil, given_inj]

def adminOptions (p : String) : Options := { modelName := "Post", routesPrefix := some p }

def adminSettings (p : Option String) : Settings :=
  ⟨"Post", "post", none, p, "posts", "layouts.app", "default", false, {}, "en"⟩

theorem layers_settled :
    (adminOptions " /.admin/posts./ ").settle {} = .ok (adminSettings (some "admin/posts")) ∧
    (∀ p ∈ some "admin/posts", IsBare isOuter p.toList) ∧
    (adminOptions "admin/posts").settle {} = .ok (adminSettings (some "admin/posts")) ∧
    (adminOptions " /./ ").settle {} = .ok (adminSettings none) ∧
    (adminSettings none).routesPrefix = none := by
  have named : (adminOptions " /.admin/posts./ ").settle {}
      = .ok (adminSettings (some "admin/posts")) := ok_of_toOption (by decide +kernel)
  have core : IsBare isOuter "admin/posts".toList := by
    constructor
    · rintro _ ⟨⟩
      decide
    · rintro _ ⟨⟩
      decide
  have layered : ∀ r ∈ (adminOptions " /.admin/posts./ ").routesPrefix, Layered r := by
    rintro _ ⟨⟩
    exact ⟨[' '], ['/', '.'], "admin/posts".toList, ['.', '/'], [' '],
      rfl, by decide, by decide, core⟩
  have empty : (adminOptions " /./ ").settle {} = .ok (adminSettings none) :=
    ok_of_toOption (by decide +kernel)
  have outer : ∀ r ∈ (adminOptions " /./ ").routesPrefix, Layered r := by
    rintro _ ⟨⟩
    exact ⟨[' '], ['/', '.', '/'], [], [], [' '], rfl, by decide, by decide, Text.bare_nil⟩
  obtain ⟨_, bare, again, _⟩ := prefix_settled_iff named
  obtain ⟨_, _, _, nothing⟩ := prefix_settled_iff empty
  exact ⟨named, bare.2 layered, again.2 layered, empty, (nothing (by decide)).2 outer⟩

/-- A blank behind a slash is no end when blanks are taken, and it stays as one. -/
theorem inner_blank_stays :
    (adminOptions "/ admin /").settle {} = .ok (adminSettings (some " admin ")) ∧
    ¬ IsBare isOuter " admin ".toList ∧
    (adminOptions " admin ").settle {} = .ok (adminSettings (some "admin")) ∧
    (adminOptions "/ /").settle {} = .ok (adminSettings (some " ")) ∧
    ¬ IsBare isOuter " ".toList := by
  refine ⟨ok_of_toOption (by decide +kernel), ?_, ok_of_toOption (by decide +kernel),
    ok_of_toOption (by decide +kernel), ?_⟩
  · exact fun bare => absurd (bare.first ' ' (by decide)) (by decide)
  · exact fun bare => absurd (bare.first ' ' (by decide)) (by decide)

end Options

end BladeForm
