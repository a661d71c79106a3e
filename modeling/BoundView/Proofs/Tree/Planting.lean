import BoundView.Proofs.Tree.Edits
import BoundView.Proofs.Tree.Standing

/-!
# Making nodes keeps documents coherent

Main statements: `Coherent.push`, a node made by itself, and `Coherent.plant`, the nodes of a whole
forest. Each link of a new node leads to a smaller number, so new nodes close no cycle
(`acyclic_of_smaller`).
-/

namespace BoundView.Dom.Document

open Relation (TransGen)

variable {κ : Type} {d : Document κ}

/-- Links of old nodes that stay, and links of new nodes to smaller numbers, close no cycle. -/
theorem acyclic_of_smaller {R R' : Nat → Nat → Prop} {n : Nat} (hR : ∀ a, ¬ TransGen R a a)
    (hlt : ∀ a b, R a b → b < n) (hnew : ∀ a b, R' a b → R a b ∨ n ≤ a ∧ b < a) (a : Nat) :
    ¬ TransGen R' a a := by
  have key : ∀ b, TransGen R' a b → TransGen R a b ∨ n ≤ a ∧ b < a := by
    intro b hab
    induction hab with
    | single hab => exact (hnew _ _ hab).imp_left .single
    | tail _ hbc ih =>
      rcases ih with hab | ⟨ha, hba⟩
      · rcases hnew _ _ hbc with hbc | ⟨hb, _⟩
        · exact .inl (hab.tail hbc)
        · obtain ⟨m, _, hm⟩ := TransGen.tail'_iff.mp hab
          exact absurd (hlt _ _ hm) (Nat.not_lt.mpr hb)
      · rcases hnew _ _ hbc with hbc | ⟨_, hcb⟩
        · exact .inr ⟨ha, Nat.lt_of_lt_of_le (hlt _ _ hbc) ha⟩
        · exact .inr ⟨ha, Nat.lt_trans hcb hba⟩
  intro haa
  rcases key a haa with h | ⟨_, h⟩
  · exact hR a h
  · exact Nat.lt_irrefl a h

namespace Coherent

section

variable {parent : Nat} {seeds : Forest (Seed κ)}

/-- Beyond the nodes of a document nothing is listed. -/
theorem children_plant_of_size_le {p : NodeId} (hp : d.size + seeds.size ≤ p) :
    (d.plant parent seeds).children p = [] := by
  unfold Document.children
  rw [d.getElem?_plant_of_size_le parent seeds hp]
  rfl

/-- Beyond the nodes of a document nothing has a parent. -/
theorem parent?_plant_of_size_le {c : NodeId} (hc : d.size + seeds.size ≤ c) :
    (d.plant parent seeds).parent? c = none := by
  unfold Document.parent?
  rw [d.getElem?_plant_of_size_le parent seeds hc]
  rfl

/-- **Old and new lists fit the parents**: a new node is listed where it stands in the forest, and a
top of the forest by the parent of the forest. -/
theorem mem_children_plant (h : d.Coherent) (hparent : parent < d.size) (p c : NodeId) :
    c ∈ (d.plant parent seeds).children p ↔ (d.plant parent seeds).parent? c = some p := by
  have standing := d.standing_plant hparent seeds
  constructor
  · intro hc
    rcases d.old_or_new seeds p with hp | ⟨hp, hp'⟩ | hp
    · rw [d.children_plant parent seeds hp] at hc
      rcases List.mem_append.mp hc with hc | hc
      · rw [d.parent?_plant parent seeds (h.child_lt hc)]
        exact (h.mem_children p c).mp hc
      · split at hc
        · rename_i hpp
          rw [hpp]
          exact standing.parent?_of_mem_tops hc
        · cases hc
    · exact (standing.parent?_of_mem_children hp hp').2 c hc
    · rw [children_plant_of_size_le hp] at hc
      cases hc
  · intro hp
    rcases d.old_or_new seeds c with hc | ⟨hc, hc'⟩ | hc
    · rw [d.parent?_plant parent seeds hc] at hp
      rw [d.children_plant parent seeds (h.parent_lt hp)]
      exact List.mem_append_left _ ((h.mem_children p c).mpr hp)
    · obtain ⟨q, _, hq, hmem⟩ := d.exists_link_plant hparent seeds hc hc'
      rw [hq] at hp
      cases hp
      exact hmem
    · rw [parent?_plant_of_size_le hc] at hp
      cases hp

theorem nodup_children_plant (h : d.Coherent) (hparent : parent < d.size) (p : NodeId) :
    ((d.plant parent seeds).children p).Nodup := by
  rcases d.old_or_new seeds p with hp | ⟨hp, hp'⟩ | hp
  · rw [d.children_plant parent seeds hp]
    split
    · refine List.nodup_append.mpr ⟨h.nodup_children p, seeds.nodup_tops _, ?_⟩
      intro a ha b hb heq
      have hlt : a < d.size := h.child_lt ha
      have hge : d.size ≤ a := by
        rw [heq]
        exact (Forest.mem_tops hb).1
      exact absurd hlt (Nat.not_lt.mpr hge)
    · rw [List.append_nil]
      exact h.nodup_children p
  · exact ((d.standing_plant hparent seeds).parent?_of_mem_children hp hp').1
  · rw [children_plant_of_size_le hp]
    exact List.nodup_nil

/-- Only the parent of the forest and nodes of the forest get new children. -/
theorem container_plant (h : d.Coherent) (hparent : parent < d.size)
    (hcontainer : (d.content parent).isContainer = true)
    (hsound : (seeds.map Seed.content).Sound) {p : NodeId}
    (hp : (d.plant parent seeds).children p ≠ []) :
    ((d.plant parent seeds).content p).isContainer = true := by
  rcases d.old_or_new seeds p with hlt | ⟨hge, hlt⟩ | hge
  · rw [d.content_plant parent seeds hlt]
    by_cases hpp : p = parent
    · rw [hpp]
      exact hcontainer
    · rw [d.children_plant parent seeds hlt, if_neg hpp, List.append_nil] at hp
      exact h.container p hp
  · exact ((d.standing_plant hparent seeds).sound hsound hge hlt).2 hp
  · exact absurd (children_plant_of_size_le hge) hp

/-- **Planting a forest of sound nodes keeps coherence.** -/
theorem plant (h : d.Coherent) (hparent : parent < d.size)
    (hcontainer : (d.content parent).isContainer = true)
    (hsound : (seeds.map Seed.content).Sound) : (d.plant parent seeds).Coherent := by
  have standing := d.standing_plant hparent seeds
  have hsize := d.size_plant parent seeds
  refine ⟨?_, ?_, h.mem_children_plant hparent, h.nodup_children_plant hparent,
    fun p hp => h.container_plant hparent hcontainer hsound hp, ?_, ?_, ?_⟩
  · rw [d.content_plant parent seeds (x := Document.root) h.size_pos]
    exact h.root
  · intro c p hp
    rw [hsize]
    rcases d.parent?_plant_cases hparent seeds hp with hp' | ⟨_, hpc⟩
    · exact Nat.lt_of_lt_of_le (h.parent_lt hp') (Nat.le_add_right _ _)
    · exact Nat.lt_trans hpc (hsize ▸ lt_size_of_parent? _ hp)
  · exact acyclic_of_smaller (n := d.size) h.acyclic (fun _ _ hab => h.parent_lt hab)
      fun _ _ hab => d.parent?_plant_cases hparent seeds hab
  · intro id hid
    rcases d.old_or_new seeds id with hlt | ⟨hge, hlt⟩ | hge
    · rw [d.content_plant parent seeds hlt] at hid
      rw [d.parent?_plant parent seeds hlt]
      exact h.fragment id hid
    · exact absurd hid (standing.sound hsound hge hlt).1.notFragment
    · exact parent?_plant_of_size_le hge
  · intro id
    rcases d.old_or_new seeds id with hlt | ⟨hge, hlt⟩ | hge
    · rw [d.content_plant parent seeds hlt]
      exact h.names id
    · exact (standing.sound hsound hge hlt).1.names
    · unfold Document.content
      rw [d.getElem?_plant_of_size_le parent seeds hge]
      exact List.nodup_nil

end

/-- **Making a node keeps coherence.** -/
theorem push (h : d.Coherent) {content : Content} (hnames : content.attributes.names.Nodup) :
    (d.push content).Coherent := by
  constructor
  case root =>
    rw [content_push, if_neg fun he : Document.root = d.size => Nat.ne_of_lt h.size_pos he]
    exact h.root
  case parent_lt =>
    intro c p hp
    rw [parent?_push] at hp
    rw [size_push]
    exact Nat.lt_succ_of_lt (h.parent_lt hp)
  case mem_children =>
    intro p c
    rw [children_push, parent?_push]
    exact h.mem_children p c
  case nodup_children =>
    intro p
    rw [children_push]
    exact h.nodup_children p
  case container =>
    intro p hp
    rw [children_push] at hp
    obtain ⟨c, hc⟩ := List.exists_mem_of_ne_nil _ hp
    rw [content_push, if_neg (Nat.ne_of_lt (d.lt_size_of_mem_children hc))]
    exact h.container p hp
  case acyclic =>
    refine h.acyclic_of_fewer fun c p hp => ?_
    rwa [parent?_push] at hp
  case fragment =>
    intro id hid
    rw [parent?_push]
    rw [content_push] at hid
    split at hid
    · rename_i hsize
      unfold Document.parent?
      rw [d.getElem?_eq_none_of_size_le (Nat.le_of_eq hsize.symm)]
      rfl
    · exact h.fragment id hid
  case names =>
    intro id
    rw [content_push]
    split
    · exact hnames
    · exact h.names id

end Coherent

end BoundView.Dom.Document
