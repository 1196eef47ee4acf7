import ClassSketch.Proofs.OutputPaths

namespace ClassSketch

namespace Files

theorem ofList_intercalate (parts : List (List Char)) :
    String.ofList (['/'].intercalate parts) = "/".intercalate (parts.map String.ofList) := by
  apply String.toList_injective
  rw [String.toList_ofList, String.toList_intercalate, List.map_map]
  simp [Function.comp_def]

theorem intercalate_segments (path : String) : "/".intercalate (segments path) = path := by
  rw [segments, ← ofList_intercalate, Text.intercalate_segments, String.ofList_toList]

/-- Puts `part` behind `path`. A part that starts at the root takes the place of the path. -/
def push (path part : String) : String :=
  if part.toList.head? = some '/' then part
  else if path = "" ∨ path.toList.getLast? = some '/' then path ++ part
  else path ++ "/" ++ part

theorem push_empty (part : String) : push "" part = part := by
  rw [push]
  split
  · rfl
  · rw [if_pos (.inl rfl), String.empty_append]

theorem push_eq_join {path part : String} (hpath : path ≠ "")
    (hpart : part.toList.head? ≠ some '/') : push path part = join path part := by
  rw [push, join, if_neg hpart]
  simp [hpath]

theorem getLast?_append_ne_slash (path : String) {name : String} (hname : name ≠ "")
    (hslash : '/' ∉ name.toList) : (path ++ name).toList.getLast? ≠ some '/' := by
  intro hlast
  rw [String.toList_append, List.getLast?_append_of_ne_nil _
    (mt String.toList_eq_nil_iff.1 hname)] at hlast
  exact hslash (List.mem_of_getLast? hlast)

theorem foldl_push {path : String} {names : List String} (hpath : path ≠ "")
    (hlast : path.toList.getLast? ≠ some '/')
    (hnames : ∀ name ∈ names, name ≠ "" ∧ '/' ∉ name.toList) :
    names.foldl push path = "/".intercalate (path :: names) := by
  induction names generalizing path with
  | nil => rw [List.foldl_nil, String.intercalate_singleton]
  | cons name names ih =>
    obtain ⟨hname, hslash⟩ := hnames name (by simp)
    have hpush : push path name = path ++ "/" ++ name := by
      rw [push, if_neg fun h => hslash (List.mem_of_head? h), if_neg (not_or.2 ⟨hpath, hlast⟩)]
    rw [List.foldl_cons, hpush, ih (by simp [hname]) (getLast?_append_ne_slash _ hname hslash)
      fun n hn => hnames n (by simp [hn]), String.intercalate_cons_append,
      String.intercalate_cons_cons]

theorem foldl_push_empty {names : List String} (hne : names ≠ [])
    (hnames : ∀ name ∈ names, name ≠ "" ∧ '/' ∉ name.toList) :
    names.foldl push "" = "/".intercalate names := by
  obtain ⟨name, names, rfl⟩ := List.exists_cons_of_ne_nil hne
  obtain ⟨hname, hslash⟩ := hnames name (by simp)
  rw [List.foldl_cons, push_empty]
  exact foldl_push hname (fun h => hslash (List.mem_of_getLast? h)) fun n hn =>
    hnames n (by simp [hn])

theorem intercalate_append_concat (above : List String) (file ending : String) :
    "/".intercalate (above ++ [file]) ++ ending = "/".intercalate (above ++ [file ++ ending]) := by
  apply String.toList_injective
  simp only [String.toList_append, String.toList_intercalate, List.map_append, List.map_singleton]
  exact Text.intercalate_concat_append ..

/-- The names in a path that are gone to, one after the other. -/
def components (path : String) : List String := (segments path).filter fun n => n ≠ "" ∧ n ≠ "."

theorem components_slash (path name : String) :
    components (path ++ "/" ++ name) = components path ++ components name := by
  rw [components, segments_slash, List.filter_append]
  rfl

theorem components_join (path name : String) :
    components (join path name) = components path ++ components name := by
  rw [join]
  split
  · rename_i hslash
    obtain ⟨front, rfl⟩ := eq_append_slash hslash
    have hfront : components (front ++ "/") = components front := by
      simp [components, segments_append_slash]
    rw [components_slash, hfront]
  · exact components_slash path name

theorem components_push {path part : String} (hpart : part.toList.head? ≠ some '/') :
    components (push path part) = components path ++ components part := by
  by_cases hpath : path = ""
  · rw [hpath, push_empty]
    rfl
  · rw [push_eq_join hpath hpart, components_join]

theorem components_of_names {path : String} (h : ∀ name ∈ segments path, Node.IsName name) :
    components path = segments path := by
  refine List.filter_eq_self.2 fun name hname => ?_
  obtain ⟨hempty, hdot, -⟩ := h name hname
  simp [hempty, hdot]

/-- From every directory the path leads to a place strictly below. -/
structure LeadsBelow (path : String) : Prop where
  relative : path.toList.head? ≠ some '/'
  behind (base : String) : base ≠ "" → push base path = join base path
  noParent : ".." ∉ segments path
  components (base : String) : ∃ names, names ≠ [] ∧ (∀ name ∈ names, Node.IsName name) ∧
    components (push base path) = components base ++ names
  walk (root : Node) (base : String) (place : List String) :
    root.walk [] (segments (join base path)) = .ok place → ∃ here names,
      root.walk [] (segments base) = .ok here ∧ names ≠ [] ∧ place = here ++ names

theorem head?_ne_slash_of_names {path : String} (h : ∀ name ∈ segments path, Node.IsName name) :
    path.toList.head? ≠ some '/' := by
  intro hhead
  obtain ⟨cs, hcs⟩ := List.head?_eq_some_iff.1 hhead
  have hempty : "" ∈ segments path := by
    rw [segments, hcs]
    simp
  exact (h _ hempty).1 rfl

theorem LeadsBelow.of_names {path : String} (h : ∀ name ∈ segments path, Node.IsName name) :
    LeadsBelow path where
  relative := head?_ne_slash_of_names h
  behind _ hbase := push_eq_join hbase (head?_ne_slash_of_names h)
  noParent hparent := (h _ hparent).2.2 rfl
  components base := by
    refine ⟨segments path, segments_ne_nil path, h, ?_⟩
    rw [components_push (head?_ne_slash_of_names h), components_of_names h]
  walk root base place hplace := by
    rw [Node.walk_join] at hplace
    obtain ⟨here, hhere, hplace⟩ := bind_eq_ok_iff.1 hplace
    exact ⟨here, segments path, hhere, segments_ne_nil path, Node.eq_append_of_walk h hplace⟩

/-- A name that has nothing in it that any file system takes for more than a name. -/
structure IsPlain (part : String) : Prop where
  isName : Node.IsName part
  chars : ∀ c ∈ part.toList, c ∉ ['/', '\\', ':', '*', '?', '\x22', '<', '>', '|', '\x00']

instance (part : String) : Decidable (IsPlain part) :=
  decidable_of_iff (Node.IsName part ∧
    part.toList.all fun c => c ∉ ['/', '\\', ':', '*', '?', '\x22', '<', '>', '|', '\x00'])
    ⟨fun h => ⟨h.1, by simpa using h.2⟩, fun h => ⟨h.1, by simpa using h.2⟩⟩

theorem IsPlain.no_slash {part : String} (h : IsPlain part) : '/' ∉ part.toList :=
  fun hslash => h.chars '/' hslash (by simp)

end Files

namespace Command

open Files

def properSegments (name : String) : List String :=
  (segments name).filter fun segment => Node.IsName segment

/-- A part of a path that keeps each character of a segment, except for the reserved ones. -/
structure Cleans (segment part : String) : Prop where
  length : part.length = segment.length
  chars : List.Forall₂ (fun c d => d = c ∨ isReserved c ∧ d = '_') segment.toList part.toList

def cleaned (segment : String) : String := String.ofList (segment.toList.map cleanChar)

theorem cleans_cleaned (segment : String) : Cleans segment (cleaned segment) where
  length := by rw [← String.length_toList, ← String.length_toList, cleaned, String.toList_ofList,
    List.length_map]
  chars := by
    rw [cleaned, String.toList_ofList, List.forall₂_map_right_iff, List.forall₂_same]
    intro c _
    rw [cleanChar]
    split
    · rename_i hc
      exact .inr ⟨hc, rfl⟩
    · exact .inl rfl

theorem isReserved_cleanChar (c : Char) : isReserved (cleanChar c) = false := by
  rw [cleanChar]
  split
  · rfl
  · simp_all

theorem properSegments_eq (name : String) : properSegments name =
    ((Text.segments '/' name.toList).filter fun s => !isEmptySegment s).map String.ofList := by
  rw [properSegments, segments, List.filter_map]
  congr 1
  refine List.filter_congr fun s _ => ?_
  cases h : isEmptySegment s <;> simp [isName_ofList_iff, h]

def pathParts (name : String) : List String := (pathSegments name).map String.ofList

theorem pathParts_eq (name : String) : pathParts name =
    if properSegments name = [] then ["_"] else (properSegments name).map cleaned := by
  rw [pathParts, pathSegments, properSegments_eq, apply_ite (List.map String.ofList), List.map_map,
    List.map_map]
  refine if_ctx_congr (by simp) (fun _ => rfl) fun _ => ?_
  refine List.map_congr_left fun s _ => ?_
  simp [cleaned]

theorem isReserved_of_mem_pathSegments {name : String} {s : List Char} {c : Char}
    (h : s ∈ pathSegments name) (hc : c ∈ s) : isReserved c = false := by
  rw [pathSegments] at h
  split at h
  · rw [List.mem_singleton.1 h] at hc
    rw [List.mem_singleton.1 hc]
    rfl
  · obtain ⟨s, -, rfl⟩ := List.mem_map.1 h
    obtain ⟨c, -, rfl⟩ := List.mem_map.1 hc
    exact isReserved_cleanChar c

theorem isPlain_of_mem_pathParts {name part : String} (h : part ∈ pathParts name) :
    IsPlain part := by
  obtain ⟨s, hs, rfl⟩ := List.mem_map.1 h
  obtain ⟨hname, hslash⟩ := of_mem_pathSegments hs
  refine ⟨isName_ofList_iff.2 hname, fun c hc hbad => ?_⟩
  rw [String.toList_ofList] at hc
  have hreserved := isReserved_of_mem_pathSegments hs hc
  rcases List.mem_cons.1 hbad with rfl | hbad
  · exact hslash hc
  · simp [isReserved, hbad] at hreserved

theorem outputPath_eq (name : String) :
    outputPath name = "/".intercalate (pathParts name) ++ ".java" := by
  rw [outputPath, String.ofList_append, ofList_intercalate, String.ofList_toList, pathParts]

theorem exists_pathParts (name : String) : ∃ above file, pathParts name = above ++ [file] := by
  have hne : pathParts name ≠ [] := fun h => pathSegments_ne_nil name (List.map_eq_nil_iff.1 h)
  exact ⟨_, _, (List.dropLast_concat_getLast hne).symm⟩

theorem outputPath_eq_foldl {name : String} {above : List String} {file : String}
    (h : pathParts name = above ++ [file]) :
    outputPath name = (above ++ [file ++ ".java"]).foldl push "" := by
  have hplain : ∀ part ∈ above ++ [file], IsPlain part :=
    fun part hpart => isPlain_of_mem_pathParts (h ▸ hpart)
  rw [outputPath_eq, h, intercalate_append_concat, foldl_push_empty (by simp)]
  intro part hpart
  rcases List.mem_append.1 hpart with hpart | hpart
  · have hpart := hplain part (List.mem_append_left _ hpart)
    exact ⟨hpart.isName.1, hpart.no_slash⟩
  · have hfile := hplain file (by simp)
    rw [List.mem_singleton.1 hpart]
    exact ⟨by simp, by simpa using hfile.no_slash⟩

theorem cleaned_eq_self {segment : String} (h : IsPlain segment) : cleaned segment = segment := by
  have hkept : segment.toList.map cleanChar = segment.toList.map id := by
    refine List.map_congr_left fun c hc => if_neg ?_
    have hchar := h.chars c hc
    simp_all [isReserved]
  rw [cleaned, hkept, List.map_id, String.ofList_toList]

theorem pathParts_eq_segments {name : String} (h : ∀ segment ∈ segments name, IsPlain segment) :
    pathParts name = segments name := by
  have hproper : properSegments name = segments name :=
    List.filter_eq_self.2 fun segment hsegment => decide_eq_true (h segment hsegment).isName
  rw [pathParts_eq, hproper, if_neg (segments_ne_nil name)]
  calc (segments name).map cleaned = (segments name).map id :=
        List.map_congr_left fun segment hsegment => cleaned_eq_self (h segment hsegment)
    _ = segments name := List.map_id _

/-- The path of a class is put together from plain names, one for each segment of the class name
that is a name, and `_` if there is none. No part of it starts at the root or goes up, so that it
leads from every directory to a place below, and nothing but the ending is added where no character
is reserved. -/
theorem outputPath_confined (name : String) :
    ∃ above file,
      outputPath name = "/".intercalate (above ++ [file]) ++ ".java" ∧
      outputPath name = (above ++ [file ++ ".java"]).foldl push "" ∧
      (∀ part ∈ above ++ [file], IsPlain part) ∧
      (properSegments name = [] → above ++ [file] = ["_"]) ∧
      (properSegments name ≠ [] → List.Forall₂ Cleans (properSegments name) (above ++ [file])) ∧
      LeadsBelow (outputPath name) ∧
      ((∀ segment ∈ segments name, IsPlain segment) → outputPath name = name ++ ".java") := by
  obtain ⟨above, file, hparts⟩ := exists_pathParts name
  refine ⟨above, file, hparts ▸ outputPath_eq name, outputPath_eq_foldl hparts,
    fun part hpart => isPlain_of_mem_pathParts (hparts ▸ hpart), ?_, ?_,
    .of_names (segments_outputPath name).2, ?_⟩
  · intro hnone
    rw [← hparts, pathParts_eq, if_pos hnone]
  · intro hsome
    rw [← hparts, pathParts_eq, if_neg hsome, List.forall₂_map_right_iff, List.forall₂_same]
    exact fun segment _ => cleans_cleaned segment
  · intro hclean
    rw [outputPath_eq, pathParts_eq_segments hclean, intercalate_segments]

/-- A class whose name starts at the root, goes up and has reserved characters, and one with a name
like any other. -/
theorem outputPath_confined_hostile :
    properSegments "/../a*b/./..\\c" = ["a*b", "..\\c"] ∧
      outputPath "/../a*b/./..\\c" = "a_b/.._c.java" ∧ LeadsBelow "a_b/.._c.java" ∧
      (∀ segment ∈ segments "com/Outer$Inner", IsPlain segment) ∧
      outputPath "com/Outer$Inner" = "com/Outer$Inner.java" := by
  have hpath : outputPath "/../a*b/./..\\c" = "a_b/.._c.java" := by decide +kernel
  have hplain : ∀ segment ∈ segments "com/Outer$Inner", IsPlain segment := by decide +kernel
  obtain ⟨-, -, -, -, -, -, -, hbelow, -⟩ := outputPath_confined "/../a*b/./..\\c"
  obtain ⟨-, -, -, -, -, -, -, -, hclean⟩ := outputPath_confined "com/Outer$Inner"
  exact ⟨by decide +kernel, hpath, hpath ▸ hbelow, hplain, hclean hplain⟩

end Command

end ClassSketch
