import ClassSketch.Proofs.Words

namespace ClassSketch

namespace Access

theorem Flag.find?_keyword (f : Flag) :
    Flag.all.find? (fun g => g.keyword = f.keyword) = some f := by
  cases f <;> decide

theorem Flag.keyword_injective : Function.Injective Flag.keyword := by
  intro f g h
  have hf := f.find?_keyword
  rw [h, g.find?_keyword] at hf
  exact (Option.some.inj hf).symm

theorem ClassForm.keyword_injective : Function.Injective ClassForm.keyword := by
  intro form form'
  cases form <;> cases form' <;> decide

theorem Flag.not_mem_keyword (f : Flag) {c : Char} (hc : c.isAlpha = false) (hat : c ≠ '@') :
    c ∉ f.keyword.toList := by
  have hall : f.keyword.toList.all (fun c => c.isAlpha || c == '@') = true := by
    cases f <;> decide
  intro hmem
  have hkind := List.all_eq_true.1 hall c hmem
  simp [hc, hat] at hkind

/-- Flags that were taken from all flags, in their order, are in order. -/
theorem sort_filter {t : Target} {q : Flag → Bool} (hq : ∀ f, q f = true → f.appliesTo t = true) :
    sort t (Flag.all.filter q) = Flag.all.filter q := by
  apply List.filter_congr
  intro f hf
  cases h : q f with
  | false => simp [h]
  | true => simp [h, hf, hq f h]

theorem sort_applicable (t : Target) (access : UInt16) :
    sort t (applicable t access) = applicable t access := by
  apply sort_filter
  intro f hf
  exact (Bool.and_eq_true_iff.1 hf).1

theorem sort_declaredFlags (form : ClassForm) (access : UInt16) :
    sort .forClass (form.declaredFlags access) = form.declaredFlags access := by
  rw [ClassForm.declaredFlags, applicable, List.filter_filter]
  apply sort_filter
  intro f hf
  exact (Bool.and_eq_true_iff.1 (Bool.and_eq_true_iff.1 hf).2).1

end Access

namespace Print

open Access

theorem modifiers_append (flags : List Flag) {ws : List String} (hws : ws ≠ []) :
    modifiers flags ++ " ".intercalate ws = " ".intercalate (flags.map Flag.keyword ++ ws) := by
  cases flags with
  | nil => simp [modifiers]
  | cons f flags =>
    rw [modifiers, if_neg (by simp), render, String.intercalate_append_of_ne_nil (by simp) hws]

end Print

end ClassSketch
