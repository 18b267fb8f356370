import Mathlib.Data.Finset.Basic
import Mathlib.Data.Finset.Lattice.Lemmas
import Mathlib.Data.List.Perm.Basic

/-!
# Ownership of resources

A table of resources that are acquired and released, and the assertion that a caller
who started from the resources `s` owns a list of further ones. A function that keeps
the books has a rule in these terms for each way it can end, and a whole run restores
the table exactly if it ends owning nothing.
-/

namespace DvbGseTunnel.Lib

variable {α : Type*} [DecidableEq α]

/-- The resources in use; those acquired and not yet released; and those released that
    were not, or no longer, to be. -/
structure Table (α : Type*) where
  used : Finset α
  outstanding : List α
  stray : List α

namespace Table

def start (s : Finset α) : Table α := ⟨s, [], []⟩

/-- A resource is acquired that `fresh` chooses. -/
def acquire (fresh : Finset α → α) (t : Table α) : α × Table α :=
  (fresh t.used,
    ⟨insert (fresh t.used) t.used, fresh t.used :: t.outstanding, t.stray⟩)

def release (a : α) (t : Table α) : Table α :=
  if a ∈ t.outstanding then ⟨t.used.erase a, t.outstanding.erase a, t.stray⟩
  else ⟨t.used.erase a, t.outstanding, t.stray ++ [a]⟩

/-- The table is the one before: everything acquired was released exactly once, and
    nothing else. -/
def Restored (s : Finset α) (t : Table α) : Prop :=
  t.used = s ∧ t.outstanding = [] ∧ t.stray = []

structure Owns (s : Finset α) (held : List α) (t : Table α) : Prop where
  used : t.used = s ∪ held.toFinset
  nodup : held.Nodup
  foreign : ∀ a ∈ held, a ∉ s
  outstanding : t.outstanding.Perm held
  stray : t.stray = []

theorem owns_start (s : Finset α) : Owns s [] (start s) where
  used := by simp [start]
  nodup := List.nodup_nil
  foreign := fun _ h => absurd h List.not_mem_nil
  outstanding := List.Perm.nil
  stray := rfl

variable {s : Finset α} {held : List α} {t : Table α}

theorem Owns.acquire (h : Owns s held t) {fresh : Finset α → α} (hfresh : fresh t.used ∉ t.used) :
    Owns s ((t.acquire fresh).1 :: held) (t.acquire fresh).2 := by
  have hunused : fresh t.used ∉ s ∪ held.toFinset := by
    rw [← h.used]
    exact hfresh
  rw [Finset.mem_union, not_or, List.mem_toFinset] at hunused
  constructor
  · change insert (fresh t.used) t.used = _
    rw [List.toFinset_cons, Finset.union_insert, ← h.used]
    rfl
  · exact List.nodup_cons.mpr ⟨hunused.2, h.nodup⟩
  · intro a ha
    rcases List.mem_cons.mp ha with rfl | hrest
    · exact hunused.1
    · exact h.foreign a hrest
  · exact h.outstanding.cons _
  · exact h.stray

theorem Owns.perm {held' : List α} (h : Owns s held t) (hperm : held.Perm held') :
    Owns s held' t where
  used := by rw [h.used, List.toFinset_eq_of_perm _ _ hperm]
  nodup := hperm.nodup_iff.mp h.nodup
  foreign := fun a ha => h.foreign a (hperm.mem_iff.mpr ha)
  outstanding := h.outstanding.trans hperm
  stray := h.stray

theorem Owns.release {a : α} (h : Owns s (a :: held) t) : Owns s held (t.release a) := by
  obtain ⟨hnot, hnodup⟩ := List.nodup_cons.mp h.nodup
  have hforeign := h.foreign a List.mem_cons_self
  have hmem : a ∈ t.outstanding := h.outstanding.mem_iff.mpr List.mem_cons_self
  unfold Table.release
  rw [if_pos hmem]
  constructor
  · change t.used.erase a = _
    rw [h.used, List.toFinset_cons, Finset.union_insert, Finset.erase_insert]
    rw [Finset.mem_union, List.mem_toFinset]
    exact not_or.mpr ⟨hforeign, hnot⟩
  · exact hnodup
  · intro b hb
    exact h.foreign b (List.mem_cons_of_mem _ hb)
  · have herased := h.outstanding.erase a
    rw [List.erase_cons_head] at herased
    exact herased
  · exact h.stray

theorem Owns.release_second {a b : α} (h : Owns s (a :: b :: held) t) :
    Owns s (a :: held) (t.release b) :=
  (h.perm (List.Perm.swap b a held)).release

/-- A run restores the table exactly if nothing is owned at its end. -/
theorem Owns.restored_iff (h : Owns s held t) : Restored s t ↔ held = [] := by
  constructor
  · rintro ⟨-, hnone, -⟩
    have hperm := h.outstanding
    rw [hnone] at hperm
    exact List.nil_perm.mp hperm
  · rintro rfl
    refine ⟨?_, List.perm_nil.mp h.outstanding, h.stray⟩
    rw [h.used, List.toFinset_nil, Finset.union_empty]

end Table

end DvbGseTunnel.Lib
