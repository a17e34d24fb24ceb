import BladeForm.Proofs.Name
import BladeForm.Proofs.Substitution
import Mathlib.Data.List.TakeDrop

/-!
Tokens that substitution leaves in place. A token may be spelled with any blanks in its brackets
and only one spelling is registered, so an occurrence is replaced as a whole or copied as a whole.
Two occurrences never overlap, since a token has its one opening bracket at its start. The names
that are reported as unknown are those of the occurrences that are copied.
-/
namespace BladeForm.Placeholders
open Name Text

def Worded (ps : Placeholders) : Prop :=
  ∀ e ∈ ps.entries, ∃ name, name ≠ "" ∧ IsWordy name.toList ∧ e.1 = token name

/-- A name in the brackets of a token, with blanks around it. -/
def Spells (name spelling : List Char) : Prop :=
  name ≠ [] ∧ IsWordy name ∧ ∃ left right, left.all isAsciiBlank = true ∧
    right.all isAsciiBlank = true ∧
    spelling = ['[', '%'] ++ (left ++ (name ++ (right ++ ['%', ']'])))

structure Occurrence where
  before : List Char
  name : List Char
  spelling : List Char

def Occurs (text : List Char) (o : Occurrence) : Prop :=
  Spells o.name o.spelling ∧ o.before ++ o.spelling <+: text

/-- The occurrence is one piece of the template, for which its value is written. -/
def Replaces (ps : Placeholders) (text : List Char) (o : Occurrence) : Prop :=
  ∃ xs ys, cut ps.tokens 0 text = xs ++ (.token o.spelling :: ys) ∧
    xs.flatMap Piece.spelling = o.before

/-- The characters of the occurrence are written one by one. -/
def Copies (ps : Placeholders) (text : List Char) (o : Occurrence) : Prop :=
  ∃ xs ys, cut ps.tokens 0 text = xs ++ (o.spelling.map .copied ++ ys) ∧
    xs.flatMap Piece.spelling = o.before

theorem tokenAhead?_iff {text name rest : List Char} : tokenAhead? text = some (name, rest) ↔
    ∃ spelling, Spells name spelling ∧ text = spelling ++ rest := by
  simp only [tokenAhead?, Option.bind_eq_bind, Option.bind_eq_some_iff, after?_iff,
    List.span_eq_takeWhile_dropWhile]
  constructor
  · rintro ⟨body, rfl, found⟩
    split_ifs at found with empty
    obtain ⟨_, closes, same⟩ := Option.bind_eq_some_iff.1 found
    cases same
    obtain ⟨left, leftBlank, leftSplit⟩ := blanks_split body
    obtain ⟨right, rightBlank, rightSplit⟩ :=
      blanks_split ((body.dropWhile isAsciiBlank).dropWhile isWordChar)
    rw [after?_iff.1 closes] at rightSplit
    have inner : body.dropWhile isAsciiBlank = (body.dropWhile isAsciiBlank).takeWhile isWordChar
        ++ (right ++ (['%', ']'] ++ rest)) := by
      rw [← rightSplit, List.takeWhile_append_dropWhile]
    refine ⟨_, ⟨by simpa using empty, ?_, left, right, leftBlank, rightBlank, rfl⟩, ?_⟩
    · exact fun c member => List.all_eq_true.1 List.all_takeWhile c member
    · simp only [List.append_assoc]
      exact congrArg (['[', '%'] ++ ·) (leftSplit.trans (congrArg (left ++ ·) inner))
  · rintro ⟨_, ⟨nonempty, wordy, left, right, leftBlank, rightBlank, rfl⟩, rfl⟩
    have opens : (left ++ (name ++ (right ++ ['%', ']'])) ++ rest).dropWhile isAsciiBlank
        = name ++ (right ++ (['%', ']'] ++ rest)) := by
      obtain ⟨c, cs, rfl⟩ := List.exists_cons_of_ne_nil nonempty
      have first := dropWhile_blanks leftBlank (word_not_blank (wordy c List.mem_cons_self))
        (cs ++ (right ++ (['%', ']'] ++ rest)))
      simpa using first
    have stops : ∀ c ∈ (right ++ (['%', ']'] ++ rest)).head?, isWordChar c = false := by
      cases right with
      | nil => simp [isWordChar, isLetter]
      | cons b bs =>
        simp only [List.all_cons, Bool.and_eq_true] at rightBlank
        intro c first
        cases first
        rw [← Bool.not_eq_true]
        intro word
        rw [word_not_blank word] at rightBlank
        exact Bool.false_ne_true rightBlank.1
    obtain ⟨taken, dropped⟩ := wordy_span wordy stops
    have closes : (right ++ (['%', ']'] ++ rest)).dropWhile isAsciiBlank = ['%', ']'] ++ rest :=
      dropWhile_blanks rightBlank (by decide) _
    refine ⟨_, by rw [List.append_assoc], ?_⟩
    rw [opens, taken, dropped, closes, after?_iff.2 rfl, if_neg (by simpa using nonempty)]
    rfl

theorem tokenAhead?_spelled {name spelling : List Char} (spells : Spells name spelling)
    (rest : List Char) : tokenAhead? (spelling ++ rest) = some (name, rest) :=
  tokenAhead?_iff.2 ⟨spelling, spells, rfl⟩

theorem spells_unique {name other spelling further rest text : List Char}
    (first : Spells name spelling) (second : Spells other further)
    (same : spelling ++ rest = further ++ text) : name = other ∧ spelling = further := by
  have found := tokenAhead?_spelled first rest
  rw [same, tokenAhead?_spelled second] at found
  cases found
  exact ⟨rfl, List.append_cancel_right same⟩

theorem spells_begins {name spelling : List Char} (spells : Spells name spelling) :
    ∃ inner, spelling = '[' :: inner ∧ '[' ∉ inner := by
  obtain ⟨_, wordy, left, right, leftBlank, rightBlank, rfl⟩ := spells
  have blank : ∀ {cs : List Char}, cs.all isAsciiBlank = true → '[' ∉ cs := by
    intro cs all member
    exact absurd (List.all_eq_true.1 all '[' member) (by decide)
  have word : '[' ∉ name := fun member => absurd (wordy '[' member) (by decide)
  exact ⟨_, rfl, by simp [blank leftBlank, blank rightBlank, word]⟩

theorem token_spells {name : String} (nonempty : name ≠ "") (wordy : IsWordy name.toList) :
    Spells name.toList (token name).toList :=
  ⟨by simpa using nonempty, wordy, [' '], [' '], rfl, rfl, by simp [token, toString]⟩

theorem worded_spells {ps : Placeholders} (worded : ps.Worded) {t : List Char}
    (member : t ∈ ps.tokens) : ∃ name, Spells name t := by
  obtain ⟨e, entry, rfl⟩ := List.mem_map.1 member
  obtain ⟨name, nonempty, wordy, same⟩ := worded e entry
  exact ⟨name.toList, same ▸ token_spells nonempty wordy⟩

theorem mem_setEntry {key value : String} {es : List (String × String)} {e : String × String}
    (member : e ∈ setEntry key value es) : e.1 = key ∨ e ∈ es := by
  induction es with
  | nil => exact Or.inl (congrArg Prod.fst (List.mem_singleton.1 member))
  | cons d es ih =>
    obtain ⟨k, v⟩ := d
    rw [setEntry] at member
    split at member
    · next same =>
      rcases List.mem_cons.1 member with rfl | later
      · exact Or.inl same
      · exact Or.inr (List.mem_cons_of_mem _ later)
    · rcases List.mem_cons.1 member with rfl | later
      · exact Or.inr List.mem_cons_self
      · exact (ih later).imp_right (List.mem_cons_of_mem _)

theorem worded_set {ps : Placeholders} {key : String} (value : String) (worded : ps.Worded)
    (spelled : ∃ name, name ≠ "" ∧ IsWordy name.toList ∧ key = token name) :
    (ps.set key value).Worded := by
  intro e member
  rcases mem_setEntry member with rfl | before
  · exact spelled
  · exact worded e before

theorem worded_setAll {ps : Placeholders} {es : List (String × String)} (worded : ps.Worded)
    (spelled : ∀ e ∈ es, ∃ name, name ≠ "" ∧ IsWordy name.toList ∧ e.1 = token name) :
    (ps.setAll es).Worded := by
  induction es generalizing ps with
  | nil => exact worded
  | cons e es ih =>
    obtain ⟨first, later⟩ := List.forall_mem_cons.1 spelled
    exact ih (worded_set e.2 worded first) later

theorem substitute_first {ps : Placeholders} (worded : ps.Worded) {c : Char} (other : c ≠ '[')
    (cs : List Char) : ps.substituteChars (c :: cs) = c :: ps.substituteChars cs := by
  refine substituteChars_cons (tokenHere?_none_iff.2 fun t member _ ahead => ?_)
  obtain ⟨name, spells⟩ := worded_spells worded member
  obtain ⟨inner, spelled, _⟩ := spells_begins spells
  rw [spelled, List.cons_prefix_cons] at ahead
  exact other ahead.1.symm

/-- Both scans go on one character where no token is spelled, and behind the token where one is. -/
theorem token_induction {motive : List Char → Prop} (nil : motive [])
    (other : ∀ c cs, tokenAhead? (c :: cs) = none → motive cs → motive (c :: cs))
    (token : ∀ name spelling rest, Spells name spelling → motive rest → motive (spelling ++ rest))
    (text : List Char) : motive text := by
  induction h : text.length using Nat.strongRecOn generalizing text with
  | ind n ih =>
    cases text with
    | nil => exact nil
    | cons c cs =>
      cases ahead : tokenAhead? (c :: cs) with
      | none => exact other c cs ahead (ih cs.length (by simp [← h]) cs rfl)
      | some found =>
        obtain ⟨spelling, spells, same⟩ := tokenAhead?_iff.1 ahead
        obtain ⟨inner, begins, _⟩ := spells_begins spells
        have shorter : found.2.length < n := by
          rw [← h, same, begins, List.length_append, List.length_cons]
          omega
        rw [same]
        exact token found.1 spelling found.2 spells (ih _ shorter found.2 rfl)

theorem tokensFrom_other {c : Char} {cs : List Char} (absent : tokenAhead? (c :: cs) = none) :
    tokensFrom 0 (c :: cs) = tokensFrom 0 cs := by
  rw [tokensFrom, absent]

theorem tokensFrom_skip (passed rest : List Char) :
    tokensFrom passed.length (passed ++ rest) = tokensFrom 0 rest := by
  induction passed with
  | nil => rfl
  | cons c cs ih => simpa [tokensFrom] using ih

theorem tokensFrom_token {name spelling : List Char} (spells : Spells name spelling)
    (rest : List Char) :
    tokensFrom 0 (spelling ++ rest) = (name, spelling) :: tokensFrom 0 rest := by
  have ahead := tokenAhead?_spelled spells rest
  obtain ⟨inner, rfl, _⟩ := spells_begins spells
  rw [List.cons_append] at ahead ⊢
  rw [tokensFrom, ahead]
  dsimp only
  have taken : (inner ++ rest).length + 1 - rest.length = ('[' :: inner).length := by
    simp only [List.length_append, List.length_cons]
    omega
  have behind : (inner ++ rest).length - rest.length = inner.length := by simp
  rw [taken, behind, tokensFrom_skip, ← List.cons_append, List.take_left]

section
variable {ps : Placeholders} (worded : ps.Worded)
include worded

theorem cut_other {c : Char} {cs : List Char} (absent : tokenAhead? (c :: cs) = none) :
    cut ps.tokens 0 (c :: cs) = .copied c :: cut ps.tokens 0 cs := by
  refine cut_copied (tokenHere?_none_iff.2 fun t member _ ahead => ?_)
  obtain ⟨name, spells⟩ := worded_spells worded member
  obtain ⟨rest, same⟩ := ahead
  rw [← same, tokenAhead?_spelled spells] at absent
  cases absent

theorem cut_registered {name spelling : List Char} (spells : Spells name spelling)
    (registered : spelling ∈ ps.tokens) (rest : List Char) :
    cut ps.tokens 0 (spelling ++ rest) = .token spelling :: cut ps.tokens 0 rest := by
  obtain ⟨inner, begins, _⟩ := spells_begins spells
  refine cut_token (tokenHere?_iff.2 ⟨registered, by simp [begins], ⟨rest, rfl⟩, ?_⟩)
  intro u member _ ahead
  obtain ⟨other, further⟩ := worded_spells worded member
  obtain ⟨behind, same⟩ := ahead
  exact Nat.le_of_eq (congrArg List.length (spells_unique further spells same).2)

theorem cut_unbracketed {xs : List Char} (free : '[' ∉ xs) (rest : List Char) :
    cut ps.tokens 0 (xs ++ rest) = xs.map .copied ++ cut ps.tokens 0 rest := by
  induction xs with
  | nil => rfl
  | cons x xs ih =>
    obtain ⟨first, later⟩ := not_or.1 (List.mem_cons.not.1 free)
    rw [List.cons_append, cut_copied, ih later]
    · rfl
    · refine tokenHere?_none_iff.2 fun t member _ ahead => ?_
      obtain ⟨name, spells⟩ := worded_spells worded member
      obtain ⟨inner, rfl, _⟩ := spells_begins spells
      exact first (List.cons_prefix_cons.1 ahead).1

theorem cut_unregistered {name spelling : List Char} (spells : Spells name spelling)
    (unregistered : spelling ∉ ps.tokens) (rest : List Char) :
    cut ps.tokens 0 (spelling ++ rest) = spelling.map .copied ++ cut ps.tokens 0 rest := by
  obtain ⟨inner, begins, free⟩ := spells_begins spells
  have absent : tokenHere? ps.tokens (spelling ++ rest) = none := by
    refine tokenHere?_none_iff.2 fun t member _ ahead => ?_
    obtain ⟨other, further⟩ := worded_spells worded member
    obtain ⟨behind, same⟩ := ahead
    exact unregistered ((spells_unique further spells same).2 ▸ member)
  rw [begins, List.cons_append] at absent ⊢
  rw [cut_copied absent, cut_unbracketed worded free]
  rfl

end

theorem ahead_before {c : Char} {cs : List Char} (absent : tokenAhead? (c :: cs) = none)
    {name spelling : List Char} (spells : Spells name spelling) (rest : List Char) :
    tokenAhead? (c :: (cs ++ (spelling ++ rest))) = none := by
  rw [Option.eq_none_iff_forall_ne_some]
  rintro ⟨other, behind⟩ found
  obtain ⟨further, longer, same⟩ := tokenAhead?_iff.1 found
  obtain ⟨inner, begins, _⟩ := spells_begins spells
  obtain ⟨tail, opens, free⟩ := spells_begins longer
  rw [← List.cons_append] at same
  rcases List.append_eq_append_iff.1 same with ⟨gap, covered, between⟩ | ⟨gap, shorter, _⟩
  · cases gap with
    | nil =>
      rw [List.append_nil] at covered
      have alone := tokenAhead?_spelled longer []
      rw [List.append_nil, covered, absent] at alone
      cases alone
    | cons g gs =>
      rw [begins, List.cons_append, List.cons_append] at between
      obtain ⟨rfl, _⟩ := List.cons.inj between
      rw [opens, List.cons_append] at covered
      refine free ?_
      rw [(List.cons.inj covered).2]
      simp
  · have alone := tokenAhead?_spelled longer gap
    rw [← shorter, absent] at alone
    cases alone

section
variable {ps : Placeholders} (worded : ps.Worded) {name spelling : List Char}
  (spells : Spells name spelling) (registered : spelling ∈ ps.tokens)
include worded spells registered

theorem cut_around (before rest : List Char) :
    cut ps.tokens 0 (before ++ (spelling ++ rest))
      = cut ps.tokens 0 before ++ .token spelling :: cut ps.tokens 0 rest := by
  induction before using token_induction with
  | nil => exact cut_registered worded spells registered rest
  | other c cs absent ih =>
    rw [List.cons_append, cut_other worded (ahead_before absent spells rest), ih,
      cut_other worded absent, List.cons_append]
  | token other further later spelled ih =>
    rw [List.append_assoc]
    by_cases known : further ∈ ps.tokens
    · rw [cut_registered worded spelled known, cut_registered worded spelled known, ih,
        List.cons_append]
    · rw [cut_unregistered worded spelled known, cut_unregistered worded spelled known, ih,
        List.append_assoc]

theorem substitute_around (before rest : List Char) :
    ps.substituteChars (before ++ (spelling ++ rest))
      = ps.substituteChars before ++ (ps.value spelling ++ ps.substituteChars rest) := by
  simp only [substituteChars_eq_scan, scan, cut_around worded spells registered,
    List.flatMap_append, List.flatMap_cons]
  rfl

end

def Occurrence.behind (passed : List Char) (o : Occurrence) : Occurrence :=
  { o with before := passed ++ o.before }

theorem occurs_nil (o : Occurrence) : ¬ Occurs [] o := by
  rintro ⟨spells, ahead⟩
  obtain ⟨inner, begins, _⟩ := spells_begins spells
  have none := List.prefix_nil.1 ahead
  simp [begins] at none

theorem occurs_other {c : Char} {cs : List Char} (absent : tokenAhead? (c :: cs) = none)
    {o : Occurrence} : Occurs (c :: cs) o ↔ ∃ p, Occurs cs p ∧ p.behind [c] = o := by
  constructor
  · rintro ⟨spells, rest, same⟩
    obtain ⟨before, name, spelling⟩ := o
    cases before with
    | nil =>
      rw [← same, List.nil_append, tokenAhead?_spelled spells] at absent
      cases absent
    | cons d ds =>
      obtain ⟨rfl, tail⟩ := List.cons.inj same
      exact ⟨⟨ds, name, spelling⟩, ⟨spells, rest, tail⟩, rfl⟩
  · rintro ⟨p, ⟨spells, ahead⟩, rfl⟩
    exact ⟨spells, List.cons_prefix_cons.2 ⟨rfl, ahead⟩⟩

theorem occurs_token {name spelling : List Char} (spells : Spells name spelling)
    (rest : List Char) {o : Occurrence} : Occurs (spelling ++ rest) o ↔
      ⟨[], name, spelling⟩ = o ∨ ∃ p, Occurs rest p ∧ p.behind spelling = o := by
  constructor
  · rintro ⟨other, further, same⟩
    obtain ⟨before, word, spelled⟩ := o
    rw [List.append_assoc] at same
    rcases List.append_eq_append_iff.1 same with ⟨gap, longer, tail⟩ | ⟨gap, shorter, tail⟩
    · -- within the first token only its start can begin another one
      cases before with
      | nil =>
        obtain ⟨rfl, rfl⟩ := spells_unique spells other same.symm
        exact Or.inl rfl
      | cons d ds =>
        obtain ⟨inner, begins, free⟩ := spells_begins spells
        obtain ⟨more, opens, _⟩ := spells_begins other
        cases gap with
        | nil =>
          refine Or.inr ⟨⟨[], word, spelled⟩, ⟨other, further, tail⟩, ?_⟩
          rw [List.append_nil] at longer
          simp [Occurrence.behind, longer]
        | cons g gs =>
          dsimp only at opens tail
          rw [opens] at tail
          obtain ⟨rfl, _⟩ := List.cons.inj tail
          rw [begins] at longer
          refine absurd ?_ free
          rw [(List.cons.inj longer).2]
          simp
    · refine Or.inr ⟨⟨gap, word, spelled⟩, ⟨other, further, ?_⟩, ?_⟩
      · rw [List.append_assoc]
        exact tail.symm
      · exact congrArg (Occurrence.mk · word spelled) shorter.symm
  · rintro (rfl | ⟨p, ⟨other, further, same⟩, rfl⟩)
    · exact ⟨spells, rest, rfl⟩
    · refine ⟨other, further, ?_⟩
      simp only [Occurrence.behind, List.append_assoc] at same ⊢
      rw [same]

theorem tokens_listed (text : List Char) : ∃ os : List Occurrence,
    os.map (fun o => (o.name, o.spelling)) = tokensFrom 0 text ∧
      os.Pairwise (fun o p => o.before.length < p.before.length) ∧ ∀ o, o ∈ os ↔ Occurs text o := by
  induction text using token_induction with
  | nil => exact ⟨[], rfl, List.Pairwise.nil, fun o => by simp [occurs_nil]⟩
  | other c cs absent ih =>
    obtain ⟨os, listed, ordered, complete⟩ := ih
    refine ⟨os.map (Occurrence.behind [c]), ?_, ?_, ?_⟩
    · rw [tokensFrom_other absent, ← listed, List.map_map]
      rfl
    · rw [List.pairwise_map]
      exact ordered.imp fun before => by simpa [Occurrence.behind] using before
    · simp only [List.mem_map, complete, occurs_other absent, implies_true]
  | token name spelling rest spells ih =>
    obtain ⟨os, listed, ordered, complete⟩ := ih
    refine ⟨⟨[], name, spelling⟩ :: os.map (Occurrence.behind spelling), ?_, ?_, ?_⟩
    · rw [tokensFrom_token spells, ← listed, List.map_cons, List.map_map]
      rfl
    · obtain ⟨inner, begins, _⟩ := spells_begins spells
      rw [List.pairwise_cons, List.pairwise_map]
      refine ⟨?_, ordered.imp fun before => by simpa [Occurrence.behind] using before⟩
      intro p member
      obtain ⟨q, _, rfl⟩ := List.mem_map.1 member
      simp [Occurrence.behind, begins]
    · intro o
      rw [List.mem_cons, List.mem_map, occurs_token spells, eq_comm]
      simp only [complete]

theorem replaces_behind {ps : Placeholders} {text rest passed : List Char} {pieces : List Piece}
    (cuts : cut ps.tokens 0 text = pieces ++ cut ps.tokens 0 rest)
    (spelled : pieces.flatMap Piece.spelling = passed) {o : Occurrence} :
    (Replaces ps rest o → Replaces ps text (o.behind passed)) ∧
      (Copies ps rest o → Copies ps text (o.behind passed)) := by
  constructor
  · rintro ⟨xs, ys, split, before⟩
    exact ⟨pieces ++ xs, ys, by rw [cuts, split, List.append_assoc]; rfl,
      by rw [List.flatMap_append, spelled, before]; rfl⟩
  · rintro ⟨xs, ys, split, before⟩
    exact ⟨pieces ++ xs, ys, by rw [cuts, split, List.append_assoc]; rfl,
      by rw [List.flatMap_append, spelled, before]; rfl⟩

theorem copied_spelling (cs : List Char) : (cs.map Piece.copied).flatMap Piece.spelling = cs := by
  rw [List.flatMap_map]
  exact List.flatMap_singleton' cs

/-- A registered spelling is replaced wherever it occurs, and every other one is copied. -/
theorem occurrence_judged {ps : Placeholders} (worded : ps.Worded) {text : List Char}
    {o : Occurrence} (occurs : Occurs text o) :
    (o.spelling ∈ ps.tokens → Replaces ps text o) ∧
      (o.spelling ∉ ps.tokens → Copies ps text o) := by
  induction text using token_induction generalizing o with
  | nil => exact absurd occurs (occurs_nil o)
  | other c cs absent ih =>
    obtain ⟨p, later, rfl⟩ := (occurs_other absent).1 occurs
    have behind := @replaces_behind ps (c :: cs) cs [c] [.copied c] (cut_other worded absent) rfl p
    exact ⟨fun known => behind.1 ((ih later).1 known), fun new => behind.2 ((ih later).2 new)⟩
  | token name spelling rest spells ih =>
    rcases (occurs_token spells rest).1 occurs with rfl | ⟨p, later, rfl⟩
    · constructor
      · intro known
        exact ⟨[], _, cut_registered worded spells known rest, rfl⟩
      · intro new
        exact ⟨[], _, cut_unregistered worded spells new rest, rfl⟩
    · have behind : (Replaces ps rest p → Replaces ps (spelling ++ rest) (p.behind spelling)) ∧
          (Copies ps rest p → Copies ps (spelling ++ rest) (p.behind spelling)) := by
        by_cases known : spelling ∈ ps.tokens
        · exact @replaces_behind ps _ rest spelling [.token spelling]
            (cut_registered worded spells known rest) (by simp [Piece.spelling]) p
        · exact replaces_behind (cut_unregistered worded spells known rest)
            (copied_spelling spelling)
      exact ⟨fun known => behind.1 ((ih later).1 known), fun new => behind.2 ((ih later).2 new)⟩

theorem piece_unique {xs ys us vs : List Piece} {p q : Piece}
    (nonempty : ∀ r ∈ xs ++ p :: ys, r.spelling ≠ []) (same : xs ++ p :: ys = us ++ q :: vs)
    (spelled : xs.flatMap Piece.spelling = us.flatMap Piece.spelling) : p = q := by
  induction xs generalizing us with
  | nil =>
    cases us with
    | nil => exact (List.cons.inj same).1
    | cons u us =>
      refine absurd ?_ (nonempty u (by rw [same]; simp))
      rw [List.flatMap_nil, List.flatMap_cons] at spelled
      exact (List.append_eq_nil_iff.1 spelled.symm).1
  | cons x xs ih =>
    cases us with
    | nil =>
      refine absurd ?_ (nonempty x List.mem_cons_self)
      rw [List.flatMap_nil, List.flatMap_cons] at spelled
      exact (List.append_eq_nil_iff.1 spelled).1
    | cons u us =>
      obtain ⟨rfl, rest⟩ := List.cons.inj same
      refine ih (fun r member => nonempty r (List.mem_cons_of_mem x member)) rest ?_
      rw [List.flatMap_cons, List.flatMap_cons] at spelled
      exact List.append_cancel_left spelled

theorem not_both {ps : Placeholders} {text : List Char} {o : Occurrence}
    (spells : Spells o.name o.spelling) (replaced : Replaces ps text o) : ¬ Copies ps text o := by
  rintro ⟨us, vs, copied, behind⟩
  obtain ⟨xs, ys, split, before⟩ := replaced
  obtain ⟨inner, begins, _⟩ := spells_begins spells
  have nonempty : ∀ r ∈ cut ps.tokens 0 text, r.spelling ≠ [] := by
    intro r member
    cases r with
    | copied c => simp [Piece.spelling]
    | token t => exact cut_tokens_nonempty _ _ t member
  rw [split, begins] at copied nonempty
  rw [List.map_cons, List.cons_append] at copied
  cases piece_unique nonempty copied (before.trans behind.symm)

theorem mem_keepFirst {seen ns : List String} {n : String} :
    n ∈ keepFirst seen ns ↔ n ∈ ns ∧ n ∉ seen := by
  induction ns generalizing seen with
  | nil => simp [keepFirst]
  | cons m ns ih =>
    rw [keepFirst]
    split
    · next known =>
      rw [ih, List.mem_cons]
      have old : m ∈ seen := by simpa using known
      constructor
      · rintro ⟨later, new⟩
        exact ⟨Or.inr later, new⟩
      · rintro ⟨rfl | later, new⟩
        · exact absurd old new
        · exact ⟨later, new⟩
    · next unknown =>
      have first : m ∉ seen := by simpa using unknown
      rw [List.mem_cons, ih, List.mem_cons, List.mem_cons]
      by_cases same : n = m
      · subst n
        simp [first]
      · simp [same]

theorem keepFirst_ordered {α : Type} {before : α → α → Prop} (name : α → String) {os : List α}
    (ordered : os.Pairwise before) (seen : List String) :
    (keepFirst seen (os.map name)).Pairwise fun a b =>
      ∃ o ∈ os, name o = a ∧ ∀ p ∈ os, name p = b → before o p := by
  induction os generalizing seen with
  | nil => exact List.Pairwise.nil
  | cons o os ih =>
    obtain ⟨first, ordered⟩ := List.pairwise_cons.1 ordered
    -- what is kept later has another name than those seen
    have later : ∀ seen : List String, name o ∈ seen →
        (keepFirst seen (os.map name)).Pairwise fun a b =>
          ∃ q ∈ o :: os, name q = a ∧ ∀ p ∈ o :: os, name p = b → before q p := by
      intro seen known
      refine List.Pairwise.imp_of_mem ?_ (ih ordered seen)
      rintro a b _ kept ⟨q, member, called, precedes⟩
      refine ⟨q, List.mem_cons_of_mem o member, called, fun p among same => ?_⟩
      rcases List.mem_cons.1 among with rfl | rest
      · exact absurd (same ▸ known) (mem_keepFirst.1 kept).2
      · exact precedes p rest same
    rw [List.map_cons, keepFirst]
    split
    · next known => exact later seen (by simpa using known)
    · refine List.pairwise_cons.2 ⟨?_, later _ List.mem_cons_self⟩
      intro b kept
      refine ⟨o, List.mem_cons_self, rfl, fun p among same => ?_⟩
      rcases List.mem_cons.1 among with rfl | rest
      · exact absurd (same ▸ List.mem_cons_self) (mem_keepFirst.1 kept).2
      · exact first p rest

theorem keepFirst_nodup (seen ns : List String) : (keepFirst seen ns).Nodup := by
  induction ns generalizing seen with
  | nil => exact List.nodup_nil
  | cons n ns ih =>
    rw [keepFirst]
    split
    · exact ih seen
    · refine List.nodup_cons.2 ⟨fun member => ?_, ih _⟩
      exact (mem_keepFirst.1 member).2 List.mem_cons_self

theorem copied_iff {ps : Placeholders} (worded : ps.Worded) {text : List Char} {o : Occurrence}
    (occurs : Occurs text o) : Copies ps text o ↔ ps.get? (String.ofList o.spelling) = none := by
  obtain ⟨known, new⟩ := occurrence_judged worded occurs
  rw [← Option.not_isSome_iff_eq_none, ← mem_tokens_iff]
  constructor
  · intro copied registered
    exact not_both occurs.1 (known registered) copied
  · exact new

/-- The unknown tokens are the names with an occurrence that substitution copies, each once and
    ordered by the first such occurrence, which may stand behind one that is replaced. No other
    occurrence is left: each is either one piece, written as its value, or copied as it is. -/
theorem unknown_tokens_copied {ps : Placeholders} (worded : ps.Worded) (template : String) :
    ps.substitute template
        = String.ofList ((cut ps.tokens 0 template.toList).flatMap ps.write) ∧
      (∀ o, Occurs template.toList o →
        (Replaces ps template.toList o ↔ ¬ Copies ps template.toList o)) ∧
      (ps.unknownTokens template).Nodup ∧
      (∀ name, name ∈ ps.unknownTokens template ↔ ∃ o, Occurs template.toList o ∧
        Copies ps template.toList o ∧ String.ofList o.name = name) ∧
      ((ps.unknownTokens template).Pairwise fun a b => ∃ o, Occurs template.toList o ∧
        Copies ps template.toList o ∧ String.ofList o.name = a ∧
        ∀ p, Occurs template.toList p → Copies ps template.toList p → String.ofList p.name = b →
          o.before.length < p.before.length) ∧
      (ps.unknownTokens template = [] ↔
        ∀ o, Occurs template.toList o → Replaces ps template.toList o) := by
  obtain ⟨os, listed, ordered, complete⟩ := tokens_listed template.toList
  have verdict : ∀ o, Occurs template.toList o →
      (Replaces ps template.toList o ↔ ¬ Copies ps template.toList o) := by
    intro o occurs
    obtain ⟨known, new⟩ := occurrence_judged worded occurs
    constructor
    · exact not_both occurs.1
    · exact fun whole => known (not_not.1 fun unknown => whole (new unknown))
  -- the occurrences that are copied, from left to right
  let left := os.filter fun o => (ps.get? (String.ofList o.spelling)).isNone
  have names : ps.unknownTokens template
      = keepFirst [] (left.map fun o => String.ofList o.name) := by
    rw [unknownTokens, ← listed, List.filter_map, List.map_map]
    rfl
  have member : ∀ o, o ∈ left ↔ Occurs template.toList o ∧ Copies ps template.toList o := by
    intro o
    rw [List.mem_filter, complete, Option.isNone_iff_eq_none]
    exact and_congr_right fun occurs => (copied_iff worded occurs).symm
  have reported : ∀ name, name ∈ ps.unknownTokens template ↔ ∃ o, Occurs template.toList o ∧
      Copies ps template.toList o ∧ String.ofList o.name = name := by
    intro name
    simp only [names, mem_keepFirst, List.mem_map, member, List.not_mem_nil, not_false_eq_true,
      and_true, and_assoc]
  refine ⟨?_, verdict, names ▸ keepFirst_nodup _ _, reported, ?_, ?_⟩
  · rw [substitute, substituteChars_eq_scan, scan]
  · rw [names]
    refine (keepFirst_ordered (fun o : Occurrence => String.ofList o.name)
      (ordered.filter _) []).imp ?_
    rintro a b ⟨o, among, called, precedes⟩
    obtain ⟨occurs, copied⟩ := (member o).1 among
    refine ⟨o, occurs, copied, called, fun p further left => ?_⟩
    exact precedes p ((member p).2 ⟨further, left⟩)
  · rw [List.eq_nil_iff_forall_not_mem]
    constructor
    · intro none o occurs
      refine (verdict o occurs).2 fun copied => none (String.ofList o.name) ?_
      exact (reported _).2 ⟨o, occurs, copied, rfl⟩
    · intro all name unknown
      obtain ⟨o, occurs, copied, _⟩ := (reported name).1 unknown
      exact (verdict o occurs).1 (all o occurs) copied

def crossed : Placeholders := (empty.named "a" "[%b%]").named "b" "[% a %]"

theorem crossed_tokens_reported : crossed.Worded ∧
    crossed.unknownTokens "[% a %][%b%][%\na%]" = ["b", "a"] ∧
    crossed.substitute "[% a %][%b%][%\na%]" = "[%b%][%b%][%\na%]" ∧
    (∃ o, Occurs "[% a %][%b%][%\na%]".toList o ∧ Copies crossed "[% a %][%b%][%\na%]".toList o ∧
      String.ofList o.name = "a") ∧
    ¬ ∀ o, Occurs "[% a %][%b%][%\na%]".toList o →
      Replaces crossed "[% a %][%b%][%\na%]".toList o := by
  have worded : crossed.Worded := by
    intro e member
    have entries : crossed.entries = [(token "a", "[%b%]"), (token "b", "[% a %]")] := by decide
    rw [entries] at member
    rcases List.mem_cons.1 member with rfl | later
    · exact ⟨"a", by decide, by decide, rfl⟩
    · rw [List.mem_singleton.1 later]
      exact ⟨"b", by decide, by decide, rfl⟩
  have unknown : crossed.unknownTokens "[% a %][%b%][%\na%]" = ["b", "a"] := by decide +kernel
  obtain ⟨text, _, _, reported, _, empty⟩ := unknown_tokens_copied worded "[% a %][%b%][%\na%]"
  refine ⟨worded, unknown, text.trans (by decide +kernel), ?_, ?_⟩
  · exact (reported "a").1 (by simp [unknown])
  · rw [← empty, unknown]
    simp

end BladeForm.Placeholders
