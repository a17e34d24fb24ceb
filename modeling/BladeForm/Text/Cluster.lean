import BladeForm.Text.Cluster.Classes

/-!
Grapheme clusters: the characters a reader sees. A mark belongs to the character before it,
a joiner holds two emoji together, a linking mark holds two consonants together, regional
letters pair up, and Hangul parts form syllables. No cluster is empty, and together they are
the text.
-/
namespace BladeForm.Text

inductive ClusterClass where
  | carriageReturn | lineFeed | control
  | extend | nonJoiner | linker | joiner | spacing | prepend
  | regional | pictograph | consonant
  | leadingJamo | vowelJamo | trailingJamo | openSyllable | closedSyllable
  | other
deriving DecidableEq, Repr

def isVowelPart (n : Nat) : Bool :=
  0x1160 ≤ n && n ≤ 0x11a7 || 0xd7b0 ≤ n && n ≤ 0xd7c6
    || n = 0x16d63 || 0x16d67 ≤ n && n ≤ 0x16d6a

def hangulClass? (n : Nat) : Option ClusterClass :=
  if 0x1100 ≤ n && n ≤ 0x115f || 0xa960 ≤ n && n ≤ 0xa97c then some .leadingJamo
  else if isVowelPart n then some .vowelJamo
  else if 0x11a8 ≤ n && n ≤ 0x11ff || 0xd7cb ≤ n && n ≤ 0xd7fb then some .trailingJamo
  else if 0xac00 ≤ n && n ≤ 0xd7a3 then
    some (if (n - 0xac00) % 28 = 0 then .openSyllable else .closedSyllable)
  else none

def clusterClass (c : Char) : ClusterClass :=
  if 0x20 ≤ c.toNat && c.toNat < 0x7f then .other
  else if c = '\r' then .carriageReturn
  else if c = '\n' then .lineFeed
  else if c.toNat = 0x200c then .nonJoiner
  else if c.toNat = 0x200d then .joiner
  else if 0x1f1e6 ≤ c.toNat && c.toNat ≤ 0x1f1ff then .regional
  else if controlRanges.has c then .control
  else if conjunctLinkerRanges.has c then .linker
  else if graphemeExtendRanges.has c || skinToneRanges.has c then .extend
  else if spacingMarkRanges.has c then .spacing
  else if prependRanges.has c then .prepend
  else if pictographRanges.has c then .pictograph
  else if conjunctConsonantRanges.has c then .consonant
  else (hangulClass? c.toNat).getD .other

def ClusterClass.isExtending (k : ClusterClass) : Bool :=
  k = .extend || k = .nonJoiner || k = .linker

/-- How far a conjunct has come: a consonant and its marks, then a linking mark among them. -/
inductive Conjunct where
  | none
  | opened
  | linked
deriving DecidableEq, Repr

def Conjunct.next (j : Conjunct) (k : ClusterClass) : Conjunct :=
  match k with
  | .consonant => .opened
  | .linker => if j = .none then .none else .linked
  | .extend | .joiner => j
  | _ => .none

/-- What the next character has to know of the text before it: the last class, whether that
    text ends in an emoji with its marks, whether a joiner follows such an emoji, whether an
    odd number of regional letters ends it, and the conjunct under way. -/
structure ClusterState where
  last : ClusterClass
  emoji : Bool
  joined : Bool
  unpaired : Bool
  conjunct : Conjunct

def ClusterState.start (k : ClusterClass) : ClusterState :=
  ⟨k, k = .pictograph, false, k = .regional, Conjunct.none.next k⟩

def ClusterState.next (s : ClusterState) (k : ClusterClass) : ClusterState :=
  ⟨k, k = .pictograph || s.emoji && k.isExtending, s.emoji && k = .joiner,
    k = .regional && !s.unpaired, s.conjunct.next k⟩

def ClusterState.isBreak (k : ClusterClass) : Bool :=
  k = .carriageReturn || k = .lineFeed || k = .control

def ClusterState.joins (s : ClusterState) (k : ClusterClass) : Bool :=
  if s.last = .carriageReturn && k = .lineFeed then true
  else if isBreak s.last || isBreak k then false
  else
    k.isExtending || k = .joiner || k = .spacing || s.last = .prepend
      || s.joined && k = .pictograph
      || s.conjunct = .linked && k = .consonant
      || s.unpaired && k = .regional
      || s.last = .leadingJamo
          && (k = .leadingJamo || k = .vowelJamo || k = .openSyllable || k = .closedSyllable)
      || (s.last = .vowelJamo || s.last = .openSyllable) && (k = .vowelJamo || k = .trailingJamo)
      || (s.last = .trailingJamo || s.last = .closedSyllable) && k = .trailingJamo

def clusterTail (s : ClusterState) : List Char → List Char × List (List Char)
  | [] => ([], [])
  | c :: cs =>
    let k := clusterClass c
    let (here, later) := clusterTail (s.next k) cs
    if s.joins k then (c :: here, later) else ([], (c :: here) :: later)

def clusters : List Char → List (List Char)
  | [] => []
  | c :: cs =>
    let (here, later) := clusterTail (.start (clusterClass c)) cs
    (c :: here) :: later

end BladeForm.Text
