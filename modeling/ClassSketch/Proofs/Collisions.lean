import ClassSketch.Proofs.Confinement

namespace ClassSketch

namespace Files

theorem segments_injective : Function.Injective segments := by
  intro path path' h
  rw [← intercalate_segments path, h, intercalate_segments]

end Files

namespace Command

open Files

/-- The proper segments of a class name, without reserved characters. A name without any counts as
one with the segment `_`. -/
def normalSegments (name : String) : List String :=
  if properSegments name = [] then ["_"] else (properSegments name).map cleaned

def normalName (name : String) : String := "/".intercalate (normalSegments name)

theorem pathParts_eq_normalSegments (name : String) : pathParts name = normalSegments name :=
  pathParts_eq name

theorem isPlain_of_mem_normalSegments {name segment : String}
    (h : segment ∈ normalSegments name) : IsPlain segment :=
  isPlain_of_mem_pathParts (pathParts_eq_normalSegments name ▸ h)

theorem normalSegments_ne_nil (name : String) : normalSegments name ≠ [] := by
  obtain ⟨above, file, hparts⟩ := exists_pathParts name
  rw [← pathParts_eq_normalSegments, hparts]
  simp

theorem outputPath_eq_normalName (name : String) : outputPath name = normalName name ++ ".java" := by
  rw [outputPath_eq, pathParts_eq_normalSegments, normalName]

theorem segments_normalName (name : String) : segments (normalName name) = normalSegments name :=
  segments_places (fun _ h => (isPlain_of_mem_normalSegments h).no_slash)
    (normalSegments_ne_nil name)

theorem normalSegments_eq_segments {name : String}
    (h : ∀ segment ∈ segments name, IsPlain segment) : normalSegments name = segments name := by
  rw [← pathParts_eq_normalSegments, pathParts_eq_segments h]

theorem normalSegments_normalName (name : String) :
    normalSegments (normalName name) = normalSegments name := by
  have hplain : ∀ segment ∈ segments (normalName name), IsPlain segment := by
    rw [segments_normalName]
    exact fun segment => isPlain_of_mem_normalSegments
  rw [normalSegments_eq_segments hplain, segments_normalName]

theorem outputPath_eq_iff {name name' : String} :
    outputPath name = outputPath name' ↔ normalSegments name = normalSegments name' := by
  rw [outputPath_eq_normalName, outputPath_eq_normalName, String.append_left_inj]
  constructor
  · intro h
    rw [← segments_normalName, h, segments_normalName]
  · intro h
    rw [normalName, h, normalName]

theorem components_outputPath (name : String) :
    components (outputPath name) = segments (outputPath name) :=
  components_of_names (segments_outputPath name).2

theorem outputPath_eq_of_locate {root : Node} {dir name name' : String} {place : List String}
    (h : root.locate (join dir (outputPath name)) = .ok place)
    (h' : root.locate (join dir (outputPath name')) = .ok place) :
    outputPath name = outputPath name' := by
  obtain ⟨base, hbase, hplace⟩ := below_of_locate h
  obtain ⟨base', hbase', hplace'⟩ := below_of_locate h'
  cases hbase.symm.trans hbase'
  exact segments_injective (List.append_cancel_left (hplace.symm.trans hplace'))

/-- Two classes have one path, whether it is compared as text, by its parts or by the place that it
leads to, just when their names have the same normal segments. The path without its ending is a
class name that has this path as well, and names that have nothing to be dropped or replaced share
their paths with no other such name. -/
theorem outputPath_collides_iff (name name' : String) :
    (outputPath name = outputPath name' ↔ normalSegments name = normalSegments name') ∧
      (components (outputPath name) = components (outputPath name') ↔
        normalSegments name = normalSegments name') ∧
      (∀ (root : Node) (dir : String) (place : List String),
        root.locate (join dir (outputPath name)) = .ok place →
          (root.locate (join dir (outputPath name')) = .ok place ↔
            normalSegments name = normalSegments name')) ∧
      (∃ normal, outputPath name = normal ++ ".java" ∧ outputPath normal = outputPath name) ∧
      ((∀ segment ∈ segments name, IsPlain segment) →
        (∀ segment ∈ segments name', IsPlain segment) →
          outputPath name = outputPath name' → name = name') := by
  refine ⟨outputPath_eq_iff, ?_, ?_, ⟨normalName name, outputPath_eq_normalName name, ?_⟩, ?_⟩
  · rw [components_outputPath, components_outputPath, segments_injective.eq_iff, outputPath_eq_iff]
  · intro root dir place hplace
    constructor
    · intro hplace'
      exact outputPath_eq_iff.1 (outputPath_eq_of_locate hplace hplace')
    · intro hsegments
      rw [← outputPath_eq_iff.2 hsegments]
      exact hplace
  · exact outputPath_eq_iff.2 (normalSegments_normalName name)
  · intro hplain hplain' hpath
    have hsegments := outputPath_eq_iff.1 hpath
    rw [normalSegments_eq_segments hplain, normalSegments_eq_segments hplain'] at hsegments
    exact segments_injective hsegments

/-- Names that climb, start at the root and have reserved characters share a path with a plain one,
and so a place. Two plain names do not. -/
theorem outputPath_collides_iff_hostile :
    let root : Node := .folder [("out", .folder [("a_b", .folder [("C.java", .file 0)])])]
    normalSegments "/a*b//../C" = normalSegments "a?b/./C" ∧
      outputPath "/a*b//../C" = outputPath "a?b/./C" ∧
      root.locate (join "out" (outputPath "/a*b//../C")) = .ok ["out", "a_b", "C.java"] ∧
      root.locate (join "out" (outputPath "a?b/./C")) = .ok ["out", "a_b", "C.java"] ∧
      (∃ normal, outputPath "/a*b//../C" = normal ++ ".java" ∧
        outputPath normal = outputPath "/a*b//../C") ∧
      (∀ segment ∈ segments "com/A", IsPlain segment) ∧
      (∀ segment ∈ segments "com/A$B", IsPlain segment) ∧
      outputPath "com/A" ≠ outputPath "com/A$B" := by
  intro root
  have hsegments : normalSegments "/a*b//../C" = normalSegments "a?b/./C" := by decide +kernel
  have hplace : root.locate (join "out" (outputPath "/a*b//../C")) =
      .ok ["out", "a_b", "C.java"] := by decide +kernel
  have hplain : ∀ segment ∈ segments "com/A", IsPlain segment := by decide +kernel
  have hplain' : ∀ segment ∈ segments "com/A$B", IsPlain segment := by decide +kernel
  obtain ⟨hsame, -, hlocate, hnormal, -⟩ := outputPath_collides_iff "/a*b//../C" "a?b/./C"
  obtain ⟨-, -, -, -, hdistinct⟩ := outputPath_collides_iff "com/A" "com/A$B"
  exact ⟨hsegments, hsame.2 hsegments, hplace, (hlocate root "out" _ hplace).2 hsegments, hnormal,
    hplain, hplain', fun h => absurd (hdistinct hplain hplain' h) (by decide)⟩

end Command

end ClassSketch
