import ClassSketch.Proofs.Modifiers
import Mathlib.Data.List.Destutter
import Mathlib.Data.List.Sort

namespace ClassSketch.Access

namespace Flag

def place (f : Flag) : Nat := all.idxOf f

theorem mem_all (f : Flag) : f ∈ all := by
  cases f <;> decide

theorem place_injective : Function.Injective place := by
  intro f g h
  exact (List.idxOf_inj f.mem_all).1 h

theorem pairwise_all : all.Pairwise fun f g => f.place < g.place := by
  decide

instance : Std.Antisymm fun f g : Flag => f.place ≤ g.place :=
  ⟨fun _ _ h h' => place_injective (Nat.le_antisymm h h')⟩

instance : Std.Antisymm fun f g : Flag => f.place < g.place :=
  ⟨fun _ _ h h' => absurd h (Nat.lt_asymm h')⟩

instance : Std.Irrefl fun f g : Flag => f.place < g.place := ⟨fun f => Nat.lt_irrefl f.place⟩

theorem keyword_ne_empty (f : Flag) : f.keyword ≠ "" := by
  cases f <;> decide

end Flag

theorem mem_sort {t : Target} {flags : List Flag} {f : Flag} :
    f ∈ sort t flags ↔ f ∈ flags ∧ f.appliesTo t := by
  rw [sort, List.mem_filter, Bool.and_eq_true, List.contains_iff_mem]
  exact ⟨fun h => ⟨h.2.2, h.2.1⟩, fun h => ⟨f.mem_all, h.2, h.1⟩⟩

theorem pairwise_sort (t : Target) (flags : List Flag) :
    (sort t flags).Pairwise fun f g => f.place < g.place :=
  Flag.pairwise_all.filter _

theorem sort_sort (t : Target) (flags : List Flag) : sort t (sort t flags) = sort t flags := by
  apply sort_filter
  intro f hf
  exact (Bool.and_eq_true_iff.1 hf).1

theorem sort_eq_iff {t : Target} {a b : List Flag} :
    sort t a = sort t b ↔ ∀ f, f.appliesTo t → (f ∈ a ↔ f ∈ b) := by
  constructor
  · intro h f hf
    have hmem : f ∈ sort t a ↔ f ∈ sort t b := by rw [h]
    simpa [mem_sort, hf] using hmem
  · intro h
    refine (pairwise_sort t a).eq_of_mem_iff (pairwise_sort t b) fun f => ?_
    rw [mem_sort, mem_sort]
    exact and_congr_left fun hf => h f hf

/-- However the flags that apply are brought into their order, once equal neighbours are made one,
the list is the same. -/
theorem destutter_eq_sort {t : Target} {flags arranged : List Flag}
    (hperm : arranged.Perm (flags.filter fun f => f.appliesTo t))
    (hordered : arranged.Pairwise fun f g => f.place ≤ g.place) :
    arranged.destutter (· ≠ ·) = sort t flags := by
  rw [hordered.destutter_eq_dedup]
  have hnodup := arranged.nodup_dedup
  have hdedup : arranged.dedup.Pairwise fun f g => f.place < g.place := by
    have hle := hordered.sublist arranged.dedup_sublist
    exact hle.imp₂ (fun f g hfg hne => Nat.lt_of_le_of_ne hfg fun h => hne (Flag.place_injective h))
      hnodup
  refine hdedup.eq_of_mem_iff (pairwise_sort t flags) fun f => ?_
  rw [List.mem_dedup, hperm.mem_iff, List.mem_filter, mem_sort]

theorem render_eq_empty_iff {flags : List Flag} : render flags = "" ↔ flags = [] := by
  cases flags with
  | nil => simp [render]
  | cons f flags =>
    have hne : " ".intercalate ((f :: flags).map Flag.keyword) ≠ "" := by
      cases flags with
      | nil => simpa using f.keyword_ne_empty
      | cons g flags => simp [String.intercalate_cons_cons, f.keyword_ne_empty]
    simpa [render] using hne

theorem render_injective : Function.Injective render := by
  intro a b h
  by_cases ha : a = []
  · subst ha
    exact (render_eq_empty_iff.1 h.symm).symm
  have hb : b ≠ [] := fun hb => ha (render_eq_empty_iff.1 (h.trans (render_eq_empty_iff.2 hb)))
  have hspace : ∀ flags : List Flag, ∀ w ∈ flags.map Flag.keyword, ' ' ∉ w.toList := by
    intro flags w hw
    obtain ⟨f, -, rfl⟩ := List.mem_map.1 hw
    exact f.not_mem_keyword rfl (by decide)
  have hwords := Text.eq_of_spaced_eq (hspace a) (hspace b) (by simpa using ha) (by simpa using hb) h
  exact List.map_injective_iff.2 Flag.keyword_injective hwords

/-- Sorting keeps the flags that apply, each once, in the order of writing, as any way to sort them
does. Two lists are written alike just when the same flags of them apply. -/
theorem renderSorted_tells_applicable (t : Target) (a b : List Flag) :
    (sort t a).Pairwise (fun f g => f.place < g.place) ∧
      (∀ f, f ∈ sort t a ↔ f ∈ a ∧ f.appliesTo t) ∧
      (∀ arranged : List Flag, arranged.Perm (a.filter fun f => f.appliesTo t) →
        arranged.Pairwise (fun f g => f.place ≤ g.place) →
          sort t a = arranged.destutter (· ≠ ·)) ∧
      sort t (sort t a) = sort t a ∧
      (renderSorted t a = renderSorted t b ↔ ∀ f, f.appliesTo t → (f ∈ a ↔ f ∈ b)) := by
  refine ⟨pairwise_sort t a, fun f => mem_sort, ?_, sort_sort t a, ?_⟩
  · intro arranged hperm hordered
    exact (destutter_eq_sort hperm hordered).symm
  · rw [renderSorted, renderSorted, render_injective.eq_iff, sort_eq_iff]

/-- Flags of a method in two orders, with one that stands twice and others that no method has. -/
theorem renderSorted_tells_applicable_twice :
    let a : List Flag := [.accNative, .accPrivate, .accEnum, .accStatic, .accPrivate]
    let b : List Flag := [.accStatic, .accVolatile, .accPrivate, .accNative]
    let arranged : List Flag := [.accPrivate, .accPrivate, .accStatic, .accNative]
    arranged.Perm (a.filter fun f => f.appliesTo .forMethod) ∧
      arranged.Pairwise (fun f g => f.place ≤ g.place) ∧
      sort .forMethod a = [.accPrivate, .accStatic, .accNative] ∧
      (∀ f : Flag, f.appliesTo .forMethod → (f ∈ a ↔ f ∈ b)) ∧
      renderSorted .forMethod a = "private static native" ∧
      renderSorted .forMethod b = renderSorted .forMethod a ∧
      renderSorted .forField b ≠ renderSorted .forField a := by
  intro a b arranged
  have hperm : arranged.Perm (a.filter fun f => f.appliesTo .forMethod) := by decide
  have hordered : arranged.Pairwise fun f g => f.place ≤ g.place := by decide
  have hsame : ∀ f : Flag, f.appliesTo .forMethod → (f ∈ a ↔ f ∈ b) := by
    intro f
    cases f <;> decide
  obtain ⟨-, -, hsort, -, hmethod⟩ := renderSorted_tells_applicable .forMethod a b
  obtain ⟨-, -, -, -, hfield⟩ := renderSorted_tells_applicable .forField a b
  have hvolatile : ¬ ∀ f : Flag, f.appliesTo .forField → (f ∈ a ↔ f ∈ b) :=
    fun h => absurd (h .accVolatile (by decide)) (by decide)
  exact ⟨hperm, hordered, (hsort arranged hperm hordered).trans (by decide), hsame, by decide,
    (hmethod.2 hsame).symm, fun h => hvolatile (hfield.1 h.symm)⟩

end ClassSketch.Access
