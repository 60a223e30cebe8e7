import DesignToWeb.Service.Files

/-!
# Written files

The last content written to a path is what stands there, and what has been removed
is gone until it is written again.
-/

namespace DesignToWeb.Service.Files

theorem isPrefixOf_append (dir path : Path) : dir.isPrefixOf (dir ++ path) = true :=
  List.isPrefixOf_iff_prefix.mpr (List.prefix_append dir path)

theorem append_ne_of_not {dir path : Path} (h : ¬ dir.isPrefixOf path = true) (rest : Path) :
    dir ++ rest ≠ path := by
  rintro rfl
  exact h (isPrefixOf_append dir rest)

theorem lookup_write (files : Files) (path : Path) (content : Content) (query : Path) :
    (files.write path content).lookup query =
      if query = path then some content else files.lookup query := by
  induction files with
  | nil =>
      rw [write, List.lookup_cons]
      by_cases hquery : query = path
      · simp [hquery]
      · simp [hquery, beq_false_of_ne hquery]
  | cons file rest ih =>
      obtain ⟨p, c⟩ := file
      unfold write
      by_cases hp : p = path
      · rw [if_pos hp, List.lookup_cons, List.lookup_cons, hp]
        by_cases hquery : query = path
        · simp [hquery]
        · simp [hquery, beq_false_of_ne hquery]
      · rw [if_neg hp, List.lookup_cons, List.lookup_cons, ih]
        by_cases hquery : query = p
        · simp [hquery, hp]
        · simp [beq_false_of_ne hquery]

/-- What is taken away by its path is not found any more, and all else is found as before. -/
theorem lookup_filter (files : Files) (keeps : Path → Bool) (query : Path) :
    (files.filter fun file ↦ keeps file.1).lookup query =
      if keeps query then files.lookup query else none := by
  induction files with
  | nil => simp
  | cons file rest ih =>
      obtain ⟨p, c⟩ := file
      by_cases hp : keeps p = true
      · rw [List.filter_cons, if_pos hp, List.lookup_cons, List.lookup_cons, ih]
        by_cases hquery : query = p
        · simp [hquery, hp]
        · simp [beq_false_of_ne hquery]
      · rw [List.filter_cons, if_neg hp, ih, List.lookup_cons]
        by_cases hquery : query = p
        · simp [hquery, hp]
        · simp [beq_false_of_ne hquery]

theorem lookup_removeTree (files : Files) {dir query : Path} (h : dir.isPrefixOf query = true) :
    (files.removeTree dir).lookup query = none := by
  rw [removeTree, lookup_filter files (fun path ↦ !dir.isPrefixOf path), h]
  rfl

theorem lookup_removeTree_of_not (files : Files) {dir query : Path}
    (h : ¬ dir.isPrefixOf query = true) : (files.removeTree dir).lookup query = files.lookup query := by
  rw [removeTree, lookup_filter files (fun path ↦ !dir.isPrefixOf path), Bool.eq_false_iff.mpr h]
  rfl

theorem lookup_removeTreeBut (files : Files) (stays : Path → Bool) (dir query : Path) :
    (files.removeTreeBut stays dir).lookup query =
      if !dir.isPrefixOf query || stays query then files.lookup query else none :=
  lookup_filter files (fun path ↦ !dir.isPrefixOf path || stays path) query

theorem lookup_of_removeTreeBut {files : Files} {stays : Path → Bool} {dir query : Path}
    {content : Content} (h : (files.removeTreeBut stays dir).lookup query = some content) :
    files.lookup query = some content := by
  rw [lookup_removeTreeBut] at h
  split at h
  · exact h
  · exact nomatch h

theorem lookup_erase (files : Files) (path query : Path) :
    (files.erase path).lookup query = if query = path then none else files.lookup query := by
  rw [erase, lookup_filter files (· != path)]
  by_cases hquery : query = path
  · rw [if_pos hquery, if_neg (by simp [hquery])]
  · rw [if_neg hquery, if_pos (bne_iff_ne.mpr hquery)]

/-- The files with an archive in the place of what stood at a path. -/
def putArchive (files : Files) (path : Path) (entries : Files) : Files :=
  (files.erase path).write path (.archive entries)

theorem lookup_putArchive (files : Files) (path : Path) (entries : Files) (query : Path) :
    (files.putArchive path entries).lookup query =
      if query = path then some (.archive entries) else files.lookup query := by
  rw [putArchive, lookup_write, lookup_erase]
  by_cases hquery : query = path
  · rw [if_pos hquery, if_pos hquery]
  · rw [if_neg hquery, if_neg hquery, if_neg hquery]

def writeAll (files entries : Files) : Files :=
  entries.foldl (fun files entry ↦ files.write entry.1 entry.2) files

theorem writeAll_cons (files : Files) (entry : Path × Content) (entries : Files) :
    files.writeAll (entry :: entries) = (files.write entry.1 entry.2).writeAll entries := rfl

theorem writeAll_append (files entries more : Files) :
    files.writeAll (entries ++ more) = (files.writeAll entries).writeAll more :=
  List.foldl_append

theorem lookup_writeAll_of_not_mem {files entries : Files} {path : Path}
    (h : ∀ entry ∈ entries, entry.1 ≠ path) :
    (files.writeAll entries).lookup path = files.lookup path := by
  induction entries generalizing files with
  | nil => rfl
  | cons entry rest ih =>
      rw [writeAll_cons, ih fun other hother ↦ h other (List.mem_cons_of_mem entry hother),
        lookup_write, if_neg (h entry List.mem_cons_self).symm]

/-- What was written last to a path stands there. -/
theorem lookup_writeAll (files entries : Files) (path : Path) :
    (files.writeAll entries).lookup path =
      ((entries.filter (path == ·.1)).getLast?.map Prod.snd).or (files.lookup path) := by
  induction entries generalizing files with
  | nil => rfl
  | cons entry rest ih =>
      rw [writeAll_cons, ih, lookup_write, List.filter_cons]
      by_cases hpath : path = entry.1
      · rw [if_pos hpath, if_pos (beq_iff_eq.mpr hpath), List.getLast?_cons]
        cases (rest.filter (path == ·.1)).getLast? <;> rfl
      · rw [if_neg hpath, if_neg (by simpa using hpath)]

/-- What stands at a path has been written there or was there before. -/
theorem mem_of_lookup_writeAll {files entries : Files} {path : Path} {content : Content}
    (h : (files.writeAll entries).lookup path = some content) :
    (path, content) ∈ entries ∨ files.lookup path = some content := by
  induction entries generalizing files with
  | nil => exact Or.inr h
  | cons entry entries ih =>
      rw [writeAll_cons] at h
      rcases ih h with hmem | hbefore
      · exact Or.inl (List.mem_cons_of_mem entry hmem)
      · rw [lookup_write] at hbefore
        by_cases hpath : path = entry.1
        · rw [if_pos hpath] at hbefore
          have hentry : (path, content) = entry := by
            rw [hpath, ← Option.some.inj hbefore]
          exact Or.inl (hentry ▸ List.mem_cons_self)
        · rw [if_neg hpath] at hbefore
          exact Or.inr hbefore

/-- What stands in a directory that was emptied has been written there since. -/
theorem mem_of_lookup_emptied {files entries : Files} {dir path : Path} {content : Content}
    (h : ((files.removeTree dir).writeAll entries).lookup (dir ++ path) = some content) :
    (dir ++ path, content) ∈ entries := by
  refine (mem_of_lookup_writeAll h).resolve_right fun hbefore ↦ ?_
  rw [lookup_removeTree _ (isPrefixOf_append dir path)] at hbefore
  exact nomatch hbefore

/-- What is done inside of a directory leaves all other files as they were. -/
theorem lookup_emptied_of_not {files entries : Files} {dir path : Path}
    (hentries : ∀ entry ∈ entries, ∃ rest, entry.1 = dir ++ rest)
    (hpath : ¬ dir.isPrefixOf path = true) :
    ((files.removeTree dir).writeAll entries).lookup path = files.lookup path := by
  rw [lookup_writeAll_of_not_mem, lookup_removeTree_of_not files hpath]
  intro entry hentry
  obtain ⟨rest, hrest⟩ := hentries entry hentry
  rw [hrest]
  exact append_ne_of_not hpath rest

theorem isSome_lookup_writeAll {files entries : Files} {path : Path} :
    ((files.writeAll entries).lookup path).isSome = true ↔
      (∃ content, (path, content) ∈ entries) ∨ (files.lookup path).isSome = true := by
  induction entries generalizing files with
  | nil => simp [writeAll]
  | cons entry entries ih =>
      rw [writeAll_cons, ih, lookup_write]
      by_cases hpath : path = entry.1
      · rw [if_pos hpath, hpath]
        constructor
        · intro _
          exact Or.inl ⟨entry.2, List.mem_cons_self⟩
        · intro _
          exact Or.inr rfl
      · rw [if_neg hpath]
        have hne (content : Content) : (path, content) ≠ entry :=
          fun heq ↦ hpath (congrArg Prod.fst heq)
        simp [hne]

theorem mem_write {files : Files} {path : Path} {content : Content} {file : Path × Content}
    (h : file ∈ files.write path content) : file = (path, content) ∨ file ∈ files := by
  induction files with
  | nil => exact Or.inl (List.mem_singleton.mp h)
  | cons first rest ih =>
      obtain ⟨p, c⟩ := first
      unfold write at h
      split at h
      · next hp =>
        rcases List.mem_cons.mp h with rfl | h
        · exact Or.inl (by rw [hp])
        · exact Or.inr (List.mem_cons_of_mem _ h)
      · rcases List.mem_cons.mp h with rfl | h
        · exact Or.inr List.mem_cons_self
        · exact (ih h).imp_right (List.mem_cons_of_mem _)

theorem mem_writeAll {files entries : Files} {file : Path × Content}
    (h : file ∈ files.writeAll entries) : file ∈ entries ∨ file ∈ files := by
  induction entries generalizing files with
  | nil => exact Or.inr h
  | cons entry rest ih =>
      rw [writeAll_cons] at h
      rcases ih h with hmem | hbefore
      · exact Or.inl (List.mem_cons_of_mem entry hmem)
      · rcases mem_write hbefore with rfl | hbefore
        · exact Or.inl List.mem_cons_self
        · exact Or.inr hbefore

end DesignToWeb.Service.Files
