import PocketSql.Text.BreakClass

/-!
# Clusters

A text falls into clusters, each of them what a reader takes for one character. Whether a character
still belongs to the cluster before it depends on its own class and on those of the cluster.
Main statement: the clusters make up the text.
-/

namespace PocketSql.Text

/-- Whether a cluster, last character first, ends with a consonant that is tied to a next one:
linkers and marks follow it. `linked` tells whether a linker was met. -/
def endsTied (linked : Bool) : List Char → Bool
  | [] => false
  | c :: before =>
    match BreakClass.ofChar c with
    | .linker => endsTied true before
    | .mark | .joiner => endsTied linked before
    | .consonant => linked
    | _ => false

/-- Whether a cluster, last character first, ends with a pictograph and its marks. -/
def endsPictograph : List Char → Bool
  | [] => false
  | c :: before =>
    match BreakClass.ofChar c with
    | .mark | .linker | .nonJoiner => endsPictograph before
    | .pictograph => true
    | _ => false

/-- The number of regional letters that a cluster, last character first, ends with. -/
def regionals (cluster : List Char) : Nat :=
  (cluster.takeWhile fun c => BreakClass.ofChar c = .regional).length

/-- Whether a character belongs to the cluster before it, which is given last character first. -/
def joins : List Char → Char → Bool
  | [], _ => false
  | last :: before, c =>
    let lastClass := BreakClass.ofChar last
    let nextClass := BreakClass.ofChar c
    if lastClass.isolated || nextClass.isolated then
      lastClass = .carriageReturn && nextClass = .lineFeed
    else if nextClass.attached || lastClass = .leader then true
    else match nextClass with
      | .consonant => endsTied false (last :: before)
      | .pictograph => lastClass = .joiner && endsPictograph before
      | .regional => regionals (last :: before) % 2 = 1
      | part => part.beforePart.contains lastClass

/-- The clusters of a text. `cluster` holds the characters of the current one, last one first. -/
def clustersFrom (cluster : List Char) : List Char → List (List Char)
  | [] => if cluster.isEmpty then [] else [cluster.reverse]
  | c :: s =>
    if cluster.isEmpty || joins cluster c then clustersFrom (c :: cluster) s
    else cluster.reverse :: clustersFrom [c] s

/-- The clusters of a text. -/
def clusters (s : List Char) : List (List Char) := clustersFrom [] s

@[simp] theorem clusters_nil : clusters [] = [] := rfl

theorem flatten_clustersFrom (cluster s : List Char) :
    (clustersFrom cluster s).flatten = cluster.reverse ++ s := by
  induction s generalizing cluster with
  | nil => cases cluster <;> simp [clustersFrom]
  | cons c s ih =>
    unfold clustersFrom
    split
    · simp [ih]
    · simp [ih]

/-- The clusters of a text make up the text. -/
@[simp] theorem flatten_clusters (s : List Char) : (clusters s).flatten = s :=
  flatten_clustersFrom [] s

end PocketSql.Text
