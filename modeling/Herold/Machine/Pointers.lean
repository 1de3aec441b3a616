import Mathlib.Logic.Function.Basic
import Mathlib.Logic.Relation

/-!
# Labelling a graph of pointers

Every vertex points to at most one other. A labelling in progress gives some vertices
a label: what a labelled vertex points to has the same label, and the label is the name
of a vertex of the same component. When all vertices have one, equal labels are
components.
-/

namespace Herold.Machine

variable {Vertex Label : Type*}

def Linked (points : Vertex → Option Vertex) : Vertex → Vertex → Prop :=
  Relation.EqvGen fun source target => points source = some target

section Linked

variable {points : Vertex → Option Vertex} {left middle right : Vertex}

theorem Linked.refl (vertex : Vertex) : Linked points vertex vertex := Relation.EqvGen.refl vertex

theorem Linked.symm (linked : Linked points left right) : Linked points right left :=
  Relation.EqvGen.symm _ _ linked

theorem Linked.trans (first : Linked points left middle) (second : Linked points middle right) :
    Linked points left right :=
  Relation.EqvGen.trans _ _ _ first second

theorem Linked.point (link : points left = some right) : Linked points left right :=
  Relation.EqvGen.rel _ _ link

/-- A relation between the vertices of two graphs that carries every pointer over also
carries components over. -/
theorem Linked.carried {Other : Type*} {otherPoints : Other → Option Other}
    (Same : Vertex → Other → Prop)
    (total : ∀ vertex, ∃ other, Same vertex other)
    (unique : ∀ vertex first second, Same vertex first → Same vertex second → first = second)
    (carries : ∀ source target other, points source = some target → Same source other →
      ∃ next, otherPoints other = some next ∧ Same target next)
    (linked : Linked points left right) (otherLeft otherRight : Other) (sameLeft : Same left otherLeft)
    (sameRight : Same right otherRight) : Linked otherPoints otherLeft otherRight := by
  induction linked generalizing otherLeft otherRight with
  | rel source target link =>
    obtain ⟨next, otherLink, sameNext⟩ := carries source target otherLeft link sameLeft
    rw [unique target otherRight next sameRight sameNext]
    exact Linked.point otherLink
  | refl vertex =>
    rw [unique vertex otherLeft otherRight sameLeft sameRight]
    exact Linked.refl otherRight
  | symm source target _ ih => exact (ih otherRight otherLeft sameRight sameLeft).symm
  | trans source between target _ _ first second =>
    obtain ⟨otherBetween, sameBetween⟩ := total between
    exact (first otherLeft otherBetween sameLeft sameBetween).trans
      (second otherBetween otherRight sameBetween sameRight)

end Linked

variable [Zero Label]

structure Labelling (points : Vertex → Option Vertex) (name : Vertex → Label)
    (label : Vertex → Label) : Prop where
  closed : ∀ source target, points source = some target → label source ≠ 0 → label target = label source
  named : ∀ vertex, label vertex ≠ 0 → ∃ root, Linked points vertex root ∧ label vertex = name root

section Labelling

variable {points : Vertex → Option Vertex} {name label : Vertex → Label}

theorem Labelling.empty : Labelling points name fun _ => 0 :=
  ⟨fun _ _ _ labelled => absurd rfl labelled, fun _ labelled => absurd rfl labelled⟩

theorem Labelling.same_label_iff (labelling : Labelling points name label)
    (complete : ∀ vertex, label vertex ≠ 0)
    (distinct : Function.Injective name) (left right : Vertex) :
    label left = label right ↔ Linked points left right := by
  constructor
  · intro same
    obtain ⟨leftRoot, toLeft, leftName⟩ := labelling.named left (complete left)
    obtain ⟨rightRoot, toRight, rightName⟩ := labelling.named right (complete right)
    have roots : leftRoot = rightRoot := distinct (by rw [← leftName, ← rightName, same])
    rw [roots] at toLeft
    exact toLeft.trans toRight.symm
  · intro linked
    induction linked with
    | rel source target link => exact (labelling.closed source target link (complete source)).symm
    | refl vertex => rfl
    | symm source target _ ih => exact ih.symm
    | trans source between target _ _ first second => exact first.trans second

/-- Giving one label to a set of vertices without one keeps a labelling, when each of
them points into the set or to a vertex of that label, and is linked to its name. -/
theorem Labelling.extended (labelling : Labelling points name label) (path : Vertex → Prop)
    {value : Label}
    {next : Vertex → Label} (unlabelled : ∀ vertex, path vertex → label vertex = 0)
    (onPath : ∀ vertex, path vertex → next vertex = value)
    (offPath : ∀ vertex, ¬path vertex → next vertex = label vertex)
    (inward : ∀ source target, path source → points source = some target → next target = value)
    (named : ∀ vertex, path vertex → ∃ root, Linked points vertex root ∧ value = name root) :
    Labelling points name next := by
  refine ⟨?_, ?_⟩
  · intro source target link labelled
    by_cases here : path source
    · rw [inward source target here link, onPath source here]
    · rw [offPath source here] at labelled ⊢
      have targetLabel := labelling.closed source target link labelled
      have elsewhere : ¬path target := by
        intro there
        rw [unlabelled target there] at targetLabel
        exact labelled targetLabel.symm
      rw [offPath target elsewhere, targetLabel]
  · intro vertex labelled
    by_cases here : path vertex
    · rw [onPath vertex here]
      exact named vertex here
    · rw [offPath vertex here] at labelled ⊢
      exact labelling.named vertex labelled

end Labelling

end Herold.Machine
