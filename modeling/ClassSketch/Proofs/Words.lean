import ClassSketch.Print.Member
import ClassSketch.Proofs.Margins
import ClassSketch.Proofs.Parameters

namespace ClassSketch

namespace Text

/-- Two ways to cut the same list are one, if both cut where `p` ceases to hold. -/
theorem append_inj_of_takeWhile {α : Type} {p : α → Bool} {front front' back back' : List α}
    (hfront : ∀ a ∈ front, p a) (hfront' : ∀ a ∈ front', p a) (hback : back.takeWhile p = [])
    (hback' : back'.takeWhile p = []) (h : front ++ back = front' ++ back') :
    front = front' ∧ back = back' := by
  have heq := congrArg (List.takeWhile p) h
  rw [List.takeWhile_append_of_pos hfront, List.takeWhile_append_of_pos hfront', hback, hback',
    List.append_nil, List.append_nil] at heq
  subst heq
  exact ⟨rfl, List.append_cancel_left h⟩

theorem append_cons_inj_of_not_mem {c : Char} {front front' back back' : List Char}
    (hfront : c ∉ front) (hfront' : c ∉ front') (h : front ++ c :: back = front' ++ c :: back') :
    front = front' ∧ back = back' := by
  have hne : ∀ cs : List Char, c ∉ cs → ∀ a ∈ cs, (a != c) = true := by
    intro cs hcs a ha
    exact bne_iff_ne.2 fun hac => hcs (hac ▸ ha)
  have hcut := append_inj_of_takeWhile (hne front hfront) (hne front' hfront') (by simp) (by simp) h
  exact ⟨hcut.1, (List.cons.inj hcut.2).2⟩

theorem eq_of_intercalate_eq {sep : Char} {ws ws' : List (List Char)} (hws : ∀ w ∈ ws, sep ∉ w)
    (hws' : ∀ w ∈ ws', sep ∉ w) (hne : ws ≠ []) (hne' : ws' ≠ [])
    (h : [sep].intercalate ws = [sep].intercalate ws') : ws = ws' := by
  have hsplit := congrArg (List.splitOn sep) h
  rwa [List.splitOn_intercalate sep hws hne, List.splitOn_intercalate sep hws' hne'] at hsplit

theorem eq_of_spaced_eq {ws ws' : List String} (hws : ∀ w ∈ ws, ' ' ∉ w.toList)
    (hws' : ∀ w ∈ ws', ' ' ∉ w.toList) (hne : ws ≠ []) (hne' : ws' ≠ [])
    (h : " ".intercalate ws = " ".intercalate ws') : ws = ws' := by
  have hlists : [' '].intercalate (ws.map String.toList) =
      [' '].intercalate (ws'.map String.toList) := by
    have htext := congrArg String.toList h
    rw [String.toList_intercalate, String.toList_intercalate] at htext
    exact htext
  have hmap := eq_of_intercalate_eq (by simpa using hws) (by simpa using hws')
    (by simpa using hne) (by simpa using hne') hlists
  exact List.map_injective_iff.2 (fun _ _ => String.toList_injective) hmap

theorem of_mem_spaced {ws : List String} {c : Char} (h : c ∈ (" ".intercalate ws).toList) :
    c = ' ' ∨ ∃ w ∈ ws, c ∈ w.toList := by
  induction ws with
  | nil => simp at h
  | cons w ws ih =>
    by_cases hws : ws = []
    · subst hws
      exact .inr ⟨w, by simp, by simpa using h⟩
    · rw [String.intercalate_cons_of_ne_nil hws] at h
      simp only [String.toList_append, List.mem_append] at h
      obtain (h | h) | h := h
      · exact .inr ⟨w, by simp, h⟩
      · exact .inl (by simpa using h)
      · obtain h | ⟨v, hv, h⟩ := ih h
        · exact .inl h
        · exact .inr ⟨v, by simp [hv], h⟩

def withCommas : List String → List String
  | [] => []
  | [item] => [item]
  | item :: rest => (item ++ ",") :: withCommas rest

theorem withCommas_cons_cons (item next : String) (rest : List String) :
    withCommas (item :: next :: rest) = (item ++ ",") :: withCommas (next :: rest) := rfl

theorem withCommas_eq_nil_iff {items : List String} : withCommas items = [] ↔ items = [] := by
  match items with
  | [] => simp [withCommas]
  | [item] => simp [withCommas]
  | item :: next :: rest => simp [withCommas]

theorem of_mem_withCommas {items : List String} {w : String} (h : w ∈ withCommas items) :
    ∃ item ∈ items, w = item ∨ w = item ++ "," := by
  induction items with
  | nil => cases h
  | cons item rest ih =>
    cases rest with
    | nil => exact ⟨item, by simp, .inl (List.mem_singleton.1 h)⟩
    | cons next rest =>
      rw [withCommas_cons_cons] at h
      obtain h | h := List.mem_cons.1 h
      · exact ⟨item, by simp, .inr h⟩
      · obtain ⟨i, hi, hw⟩ := ih h
        exact ⟨i, by simp [hi], hw⟩

/-- Only the last item has no comma behind it. -/
theorem eq_nil_of_withCommas_eq_cons {items rest : List String} {w : String}
    (hw : ',' ∉ w.toList) (h : withCommas items = w :: withCommas rest) : rest = [] := by
  match items with
  | [] => cases h
  | [item] => exact withCommas_eq_nil_iff.1 (List.cons.inj h).2.symm
  | item :: next :: items =>
    rw [withCommas_cons_cons] at h
    exact absurd (by simp [← (List.cons.inj h).1]) hw

theorem spaced_withCommas (items : List String) :
    " ".intercalate (withCommas items) = ", ".intercalate items := by
  induction items with
  | nil => rfl
  | cons item rest ih =>
    cases rest with
    | nil => rfl
    | cons next rest =>
      have hne : withCommas (next :: rest) ≠ [] := mt withCommas_eq_nil_iff.1 (by simp)
      have hcomma : "," ++ " " = ", " := rfl
      rw [withCommas_cons_cons, String.intercalate_cons_of_ne_nil hne, ih,
        String.intercalate_cons_cons, ← hcomma]
      simp only [String.append_assoc]

theorem withCommas_injective : Function.Injective withCommas := by
  intro items
  induction items with
  | nil =>
    intro items' h
    exact (withCommas_eq_nil_iff.1 h.symm).symm
  | cons item rest ih =>
    intro items' h
    cases items' with
    | nil => exact withCommas_eq_nil_iff.1 h
    | cons item' rest' =>
      cases rest with
      | nil =>
        cases rest' with
        | nil => exact h
        | cons next' rest' =>
          rw [withCommas_cons_cons] at h
          exact absurd (List.cons.inj h).2.symm (mt withCommas_eq_nil_iff.1 (by simp))
      | cons next rest =>
        cases rest' with
        | nil =>
          rw [withCommas_cons_cons] at h
          exact absurd (List.cons.inj h).2 (mt withCommas_eq_nil_iff.1 (by simp))
        | cons next' rest' =>
          rw [withCommas_cons_cons, withCommas_cons_cons] at h
          obtain ⟨hitem, hrest⟩ := List.cons.inj h
          rw [(String.append_left_inj ",").1 hitem, ih hrest]

theorem listed_cons (item : String) (rest : List String) :
    ", ".intercalate (item :: rest) = item ++ ", ".intercalate ("" :: rest) := by
  have h := String.intercalate_cons_append (s := ", ") (t := item) (u := "") (l := rest)
  rwa [String.append_empty] at h

theorem toList_listed (item : String) (rest : List String) :
    (", ".intercalate (item :: rest)).toList =
      [','].intercalate (item.toList :: rest.map fun s => ' ' :: s.toList) := by
  induction rest generalizing item with
  | nil => simp
  | cons next rest ih =>
    have hspace := intercalate_append_cons [','] [' '] next.toList
      (rest.map fun s => ' ' :: s.toList)
    rw [List.singleton_append, List.singleton_append, ← ih next] at hspace
    rw [String.intercalate_cons_cons, List.map_cons, List.intercalate_cons_cons, hspace]
    simp

theorem eq_of_listed_eq {items items' : List String}
    (hitems : ∀ item ∈ items, item ≠ "" ∧ ',' ∉ item.toList)
    (hitems' : ∀ item ∈ items', item ≠ "" ∧ ',' ∉ item.toList)
    (h : ", ".intercalate items = ", ".intercalate items') : items = items' := by
  have hparts : ∀ (item : String) (rest : List String),
      (∀ i ∈ item :: rest, i ≠ "" ∧ ',' ∉ i.toList) →
        ∀ part ∈ item.toList :: rest.map fun s => ' ' :: s.toList, ',' ∉ part := by
    intro item rest hall part hpart
    obtain rfl | hpart := List.mem_cons.1 hpart
    · exact (hall item (by simp)).2
    · obtain ⟨s, hs, rfl⟩ := List.mem_map.1 hpart
      simpa using (hall s (by simp [hs])).2
  cases items with
  | nil =>
    cases items' with
    | nil => rfl
    | cons item' rest' =>
      rw [String.intercalate_nil, listed_cons, eq_comm, String.append_eq_empty_iff] at h
      exact absurd h.1 (hitems' item' (by simp)).1
  | cons item rest =>
    cases items' with
    | nil =>
      rw [String.intercalate_nil, listed_cons, String.append_eq_empty_iff] at h
      exact absurd h.1 (hitems item (by simp)).1
    | cons item' rest' =>
      have hlists := congrArg String.toList h
      rw [toList_listed, toList_listed] at hlists
      have hcut := eq_of_intercalate_eq (hparts item rest hitems) (hparts item' rest' hitems')
        (by simp) (by simp) hlists
      obtain ⟨hitem, hrest⟩ := List.cons.inj hcut
      have hspace : Function.Injective fun s : String => ' ' :: s.toList := by
        intro s t hst
        exact String.toList_injective (List.cons.inj hst).2
      rw [String.toList_injective hitem, List.map_injective_iff.2 hspace hrest]

end Text

end ClassSketch
