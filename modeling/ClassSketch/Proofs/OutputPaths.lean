import ClassSketch.Command.Print
import ClassSketch.Proofs.Margins
import ClassSketch.Proofs.Places

namespace ClassSketch

namespace Text

theorem segments_append_cons (sep : Char) (cs cs' : List Char) :
    segments sep (cs ++ sep :: cs') = segments sep cs ++ segments sep cs' := by
  simp only [segments_eq_splitOn, List.splitOn]
  exact List.splitOnP_append_cons cs cs' (beq_self_eq_true sep)

theorem segments_intercalate {sep : Char} {ls : List (List Char)} (h : ∀ l ∈ ls, sep ∉ l)
    (hne : ls ≠ []) : segments sep ([sep].intercalate ls) = ls := by
  rw [segments_eq_splitOn, List.splitOn_intercalate sep h hne]

theorem intercalate_concat_append {α : Type} (sep : List α) (ls : List (List α)) (l l' : List α) :
    sep.intercalate (ls ++ [l]) ++ l' = sep.intercalate (ls ++ [l ++ l']) := by
  induction ls with
  | nil => simp
  | cons k ls ih =>
    rw [List.cons_append, List.cons_append, List.intercalate_cons_of_ne_nil (by simp),
      List.intercalate_cons_of_ne_nil (by simp), ← ih]
    simp only [List.append_assoc]

end Text

namespace Files

theorem segments_slash (path name : String) :
    segments (path ++ "/" ++ name) = segments path ++ segments name := by
  rw [segments, segments, segments, ← List.map_append, ← Text.segments_append_cons]
  simp

theorem segments_append_slash (path : String) : segments (path ++ "/") = segments path ++ [""] := by
  rw [← String.append_empty (s := path ++ "/"), segments_slash]
  rfl

theorem eq_append_slash {path : String} (h : path.toList.getLast? = some '/') :
    ∃ front, path = front ++ "/" := by
  obtain ⟨front, hfront⟩ := List.getLast?_eq_some_iff.1 h
  refine ⟨String.ofList front, String.toList_injective ?_⟩
  simpa using hfront

theorem segments_places {place : List String} (h : ∀ name ∈ place, '/' ∉ name.toList)
    (hne : place ≠ []) : segments ("/".intercalate place) = place := by
  rw [segments, String.toList_intercalate]
  show (Text.segments '/' (['/'].intercalate _)).map _ = _
  rw [Text.segments_intercalate (by simpa using h) (by simpa using hne)]
  simp

/-- The last name of a place is one of the files for classes. -/
def IsJava (place : List String) : Prop :=
  ∃ above name, place = above ++ [name] ∧ ".java".toList <:+ name.toList

theorem IsJava.append {place : List String} (h : IsJava place) (base : List String) :
    IsJava (base ++ place) := by
  obtain ⟨above, name, rfl, hname⟩ := h
  exact ⟨base ++ above, name, by rw [List.append_assoc], hname⟩

namespace Node

theorem walk_empty_cons (root : Node) (here names : List String) (h : names ≠ []) :
    root.walk here ("" :: names) = root.walk here names := by
  obtain ⟨name, rest, rfl⟩ := List.exists_cons_of_ne_nil h
  rw [walk_cons, enter]
  cases hkind : root.kindAt? here with
  | none =>
    rw [walk_cons, enter, hkind]
    rfl
  | some kind =>
    cases kind with
    | file =>
      rw [walk_cons, enter, hkind]
      rfl
    | dir => rfl

theorem walk_join (root : Node) (path name : String) :
    root.walk [] (segments (join path name)) =
      root.walk [] (segments path) >>= fun here => root.walk here (segments name) := by
  rw [join]
  split
  · rename_i hslash
    obtain ⟨front, rfl⟩ := eq_append_slash hslash
    rw [segments_slash, segments_append_slash, walk_append, walk_append, bind_assoc]
    refine bind_congr fun here => ?_
    rw [← walk_append]
    exact (walk_empty_cons root here _ (segments_ne_nil name)).symm
  · rw [segments_slash, walk_append]

theorem join_ne_empty (path name : String) : join path name ≠ "" := by
  intro h
  rw [join] at h
  split at h
  · rename_i hslash
    rw [(String.append_eq_empty_iff.1 h).1] at hslash
    cases hslash
  · have hslash := (String.append_eq_empty_iff.1 (String.append_eq_empty_iff.1 h).1).2
    exact absurd hslash (by decide)

theorem locate_join_eq_ok_iff {root : Node} {path name : String} {place : List String} :
    root.locate (join path name) = .ok place ↔ (join path name).utf8ByteSize < maxPath ∧
      ∃ here, root.walk [] (segments path) = .ok here ∧
        root.walk here (segments name) = .ok place := by
  rw [locate_eq_ok_iff, walk_join, bind_eq_ok_iff]
  exact and_iff_right (join_ne_empty path name)

end Node

end Files

namespace Command

open Files

theorem eq_of_map_cleanChar {s t : List Char} (h : s.map cleanChar = t) (ht : '_' ∉ t) : s = t := by
  have hkept : s.map cleanChar = s.map id := by
    apply List.map_congr_left
    intro c hc
    have hclean : cleanChar c ≠ '_' := fun he => ht (h ▸ he ▸ List.mem_map_of_mem hc)
    rw [cleanChar] at hclean ⊢
    split at hclean
    · contradiction
    · simp_all
  rw [← h, hkept, List.map_id]

theorem isEmptySegment_eq_false_iff {s : List Char} :
    isEmptySegment s = false ↔ s ≠ [] ∧ s ≠ ['.'] ∧ s ≠ ['.', '.'] := by
  simp [isEmptySegment, and_assoc]

theorem pathSegments_ne_nil (name : String) : pathSegments name ≠ [] := by
  rw [pathSegments]
  split <;> simp_all

theorem of_mem_pathSegments {name : String} {s : List Char} (h : s ∈ pathSegments name) :
    isEmptySegment s = false ∧ '/' ∉ s := by
  rw [pathSegments] at h
  split at h
  · rw [List.mem_singleton.1 h]
    decide
  · obtain ⟨s, hs, rfl⟩ := List.mem_map.1 h
    obtain ⟨hs, hkept⟩ := List.mem_filter.1 hs
    have hslash := Text.not_mem_of_mem_segments hs
    have hname : ∀ t, '_' ∉ t → s ≠ t → s.map cleanChar ≠ t :=
      fun t ht hst he => hst (eq_of_map_cleanChar he ht)
    obtain ⟨hnil, hdot, hdots⟩ := isEmptySegment_eq_false_iff.1 (by simpa using hkept)
    constructor
    · exact isEmptySegment_eq_false_iff.2
        ⟨hname _ (by decide) hnil, hname _ (by decide) hdot, hname _ (by decide) hdots⟩
    · intro hc
      obtain ⟨c, hc, he⟩ := List.mem_map.1 hc
      rw [cleanChar] at he
      split at he
      · cases he
      · exact hslash (he ▸ hc)

theorem isName_ofList_iff {s : List Char} :
    Node.IsName (String.ofList s) ↔ isEmptySegment s = false := by
  have hname : ∀ t, String.ofList s ≠ String.ofList t ↔ s ≠ t :=
    fun t => not_congr String.ofList_inj
  rw [isEmptySegment_eq_false_iff, ← hname, ← hname, ← hname]
  rfl

/-- The path of a class is made of names, and the last one is that of its file. -/
theorem segments_outputPath (name : String) :
    IsJava (segments (outputPath name)) ∧ ∀ n ∈ segments (outputPath name), Node.IsName n := by
  obtain ⟨dirs, file, hparts⟩ : ∃ dirs file, pathSegments name = dirs ++ [file] :=
    ⟨_, _, (List.dropLast_concat_getLast (pathSegments_ne_nil name)).symm⟩
  have hmem : ∀ s ∈ dirs ++ [file], isEmptySegment s = false ∧ '/' ∉ s :=
    hparts ▸ fun s => of_mem_pathSegments
  have hslash : ∀ s ∈ dirs ++ [file ++ ".java".toList], '/' ∉ s := by
    intro s hs
    rcases List.mem_append.1 hs with hs | hs
    · exact (hmem s (by simp [hs])).2
    · rw [List.mem_singleton.1 hs]
      simpa using (hmem file (by simp)).2
  have hpath : segments (outputPath name) =
      dirs.map String.ofList ++ [String.ofList (file ++ ".java".toList)] := by
    rw [outputPath, hparts, segments, String.toList_ofList, Text.intercalate_concat_append,
      Text.segments_intercalate hslash (by simp), List.map_append]
    rfl
  rw [hpath]
  refine ⟨⟨_, _, rfl, by simp⟩, fun n hn => ?_⟩
  rcases List.mem_append.1 hn with hn | hn
  · obtain ⟨s, hs, rfl⟩ := List.mem_map.1 hn
    exact isName_ofList_iff.2 (hmem s (by simp [hs])).1
  · rw [List.mem_singleton.1 hn]
    have hlong : ∀ t : List Char, t.length < 5 → file ++ ".java".toList ≠ t := by
      rintro t ht rfl
      rw [List.length_append] at ht
      exact absurd ht (Nat.not_lt.2 (Nat.le_add_left 5 _))
    exact isName_ofList_iff.2 (isEmptySegment_eq_false_iff.2
      ⟨hlong _ (by decide), hlong _ (by decide), hlong _ (by decide)⟩)

theorem below_of_locate {root : Node} {dir className : String} {place : List String}
    (h : root.locate (join dir (outputPath className)) = .ok place) :
    ∃ base, root.walk [] (segments dir) = .ok base ∧
      place = base ++ segments (outputPath className) := by
  obtain ⟨-, base, hbase, hplace⟩ := Node.locate_join_eq_ok_iff.1 h
  exact ⟨base, hbase, Node.eq_append_of_walk (segments_outputPath className).2 hplace⟩

end Command

end ClassSketch
