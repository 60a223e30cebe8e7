import DesignToWeb.Proofs.Service.Action
import DesignToWeb.Proofs.Service.Files
import DesignToWeb.Proofs.Service.Store
import DesignToWeb.Service.Assets

/-!
# Written assets

The functions that write assets differ from one another only in what they write.
Each of them comes to a list of files, which is described by its members.  It writes
all of them, or those before the first that cannot be opened.
-/

namespace DesignToWeb.Service

open Service.Action

/-! ## Writing one file after the other -/

/-- Whether a machine can open all of some files. -/
def Opens (machine : Machine) (files : Files) : Prop :=
  ∀ file ∈ files, machine.opening? file.1 = none

/-- How it ends to write files one after the other: all of them are written, or those before the
first that cannot be opened. -/
inductive WritingEnds (machine : Machine) (files : Files) (s : Session) :
    Option Fault → Session → Prop
  | written (hopens : Opens machine files) :
      WritingEnds machine files s none { s with files := s.files.writeAll files }
  | refused {first rest : Files} {reason : String} (hfiles : files = first ++ rest)
      (hopens : ¬ Opens machine files) :
      WritingEnds machine files s (some (.obstacle (.refusedChange reason)))
        { s with files := s.files.writeAll first }

/-- What an action comes to that fails by a fault, if there is one. -/
def orFault {α : Type} (value : α) : Option Fault → Except Fault α
  | none => .ok value
  | some fault => .error fault

section Writing

/-- What begins with an action that fails by a fault, if there is one, ends there or goes on. -/
theorem bind_of_orFault {α β : Type} {a : Action α} {f : α → Action β} {s t u : Session}
    {value : α} {fault? : Option Fault} {result : Except Fault β}
    (ha : a.outcome s = (orFault value fault?, t)) (h : (a >>= f).outcome s = (result, u)) :
    (∃ fault, fault? = some fault ∧ t = u ∧ result = .error fault) ∨
      fault? = none ∧ (f value).outcome t = (result, u) := by
  rw [outcome_bind, ha] at h
  cases fault? with
  | none => exact Or.inr ⟨rfl, h⟩
  | some fault =>
      obtain ⟨hresult, hsession⟩ := Prod.mk.inj h
      exact Or.inl ⟨fault, rfl, hsession, hresult.symm⟩

variable {machine : Machine} {files : Files} {s t : Session} {fault? : Option Fault}
  {path : Path} {content : Content}

theorem WritingEnds.of_none (h : WritingEnds machine files s none t) :
    Opens machine files ∧ t = { s with files := s.files.writeAll files } := by
  cases h with
  | written hopens => exact ⟨hopens, rfl⟩

theorem WritingEnds.of_opens (h : WritingEnds machine files s fault? t)
    (hopens : Opens machine files) :
    fault? = none ∧ t = { s with files := s.files.writeAll files } := by
  cases h with
  | written _ => exact ⟨rfl, rfl⟩
  | refused _ hrefused => exact absurd hopens hrefused

/-- Whatever has been written is some of the files. -/
theorem WritingEnds.exists_subset (h : WritingEnds machine files s fault? t) :
    ∃ written ⊆ files, t = { s with files := s.files.writeAll written } := by
  cases h with
  | written _ => exact ⟨files, List.Subset.refl files, rfl⟩
  | refused hfiles _ => exact ⟨_, hfiles ▸ List.subset_append_left _ _, rfl⟩

theorem WritingEnds.cons (hopen : machine.opening? path = none)
    (h : WritingEnds machine files { s with files := s.files.write path content } fault? t) :
    WritingEnds machine ((path, content) :: files) s fault? t := by
  cases h with
  | written hopens => exact .written (List.forall_mem_cons.mpr ⟨hopen, hopens⟩)
  | @refused first rest _ hfiles hopens =>
      have hcons : (path, content) :: files = ((path, content) :: first) ++ rest := by
        rw [hfiles]
        rfl
      exact .refused hcons fun hall ↦ hopens (List.forall_mem_cons.mp hall).2

theorem WritingEnds.head {reason : String} (h : machine.opening? path = some reason) :
    WritingEnds machine ((path, content) :: files) s
      (some (.obstacle (.refusedChange reason))) s := by
  refine .refused (List.nil_append _).symm fun hall ↦ ?_
  exact nomatch h.symm.trans (List.forall_mem_cons.mp hall).1

/-- An action that begins with a file ends with the first one if that cannot be opened, and else as
the rest of it. -/
theorem exists_writeData_bind {α : Type} {data : String} {value : α} {rest : Action α}
    (h : ∃ fault? t, WritingEnds machine files
      { s with files := s.files.write path (.text data) } fault? t ∧
        rest.outcome { s with files := s.files.write path (.text data) } =
          (orFault value fault?, t)) :
    ∃ fault? t, WritingEnds machine ((path, .text data) :: files) s fault? t ∧
      (writeData machine path data >>= fun _ ↦ rest).outcome s = (orFault value fault?, t) := by
  rw [outcome_bind, writeData, outcome_writeFile]
  cases hopen : machine.opening? path with
  | some reason => exact ⟨_, s, .head hopen, rfl⟩
  | none =>
      obtain ⟨fault?, t, hends, hrun⟩ := h
      exact ⟨fault?, t, hends.cons hopen, hrun⟩

end Writing

/-! ## Drawings -/

def drawingPath (dir : Path) (id : String) : Path := dir ++ [Naming.fallbackAsset id]

def drawingFiles (dir : Path) (drawings : List (String × String)) : Files :=
  drawings.map fun drawing ↦ (drawingPath dir drawing.1, .text drawing.2)

def drawingPaths (dir : Path) (drawings : List (String × String)) : AssetPaths :=
  drawings.map fun drawing ↦ (drawing.1, drawingPath dir drawing.1)

theorem exists_writeRenders (machine : Machine) (dir : Path) (drawings : List (String × String))
    (s : Session) : ∃ fault? t, WritingEnds machine (drawingFiles dir drawings) s fault? t ∧
      (writeRenders machine dir drawings).outcome s =
        (orFault (drawingPaths dir drawings) fault?, t) := by
  induction drawings generalizing s with
  | nil => exact ⟨none, s, .written fun _ hfile ↦ absurd hfile List.not_mem_nil, rfl⟩
  | cons drawing rest ih =>
      obtain ⟨id, data⟩ := drawing
      obtain ⟨fault?, t, hends, hrun⟩ := ih
        { s with files := s.files.write (drawingPath dir id) (.text data) }
      refine exists_writeData_bind ⟨fault?, t, hends, ?_⟩
      rw [outcome_bind, hrun]
      cases fault? with
      | none => rfl
      | some fault => rfl

theorem isSome_lookup_drawings (dir : Path) (drawings : List (String × String)) (id : String) :
    ((drawingPaths dir drawings).lookup id).isSome = (drawings.lookup id).isSome := by
  induction drawings with
  | nil => rfl
  | cons drawing rest ih =>
      rw [drawingPaths, List.map_cons, List.lookup_cons, List.lookup_cons]
      cases hid : id == drawing.1 with
      | true => rfl
      | false => exact ih

/-- The placeholders that are written for nodes of which nothing has been found. -/
def IsPlaceholder {α : Type} (dir : Path) (found : List (String × α)) (ids : List String)
    (file : Path × Content) : Prop :=
  ∃ id ∈ ids, (found.lookup id).isSome = false ∧
    file = (drawingPath dir id, .text (placeholderSvg id))

section Placeholders

variable {dir : Path} {id : String} {rest : List String} {file : Path × Content}

theorem isPlaceholder_cons_of_found {α : Type} {found : List (String × α)}
    (h : (found.lookup id).isSome = true) :
    IsPlaceholder dir found (id :: rest) file ↔ IsPlaceholder dir found rest file := by
  constructor
  · rintro ⟨other, hother, hmissing, hfile⟩
    rcases List.mem_cons.mp hother with rfl | hother
    · rw [h] at hmissing
      exact Bool.noConfusion hmissing
    · exact ⟨other, hother, hmissing, hfile⟩
  · rintro ⟨other, hother, hmissing, hfile⟩
    exact ⟨other, List.mem_cons_of_mem id hother, hmissing, hfile⟩

/-- From its placeholder on, a node counts as found. -/
theorem isPlaceholder_cons_of_missing {α : Type} {found : List (String × α)}
    (h : (found.lookup id).isSome = false) (own : α) :
    IsPlaceholder dir found (id :: rest) file ↔
      file = (drawingPath dir id, .text (placeholderSvg id)) ∨
        IsPlaceholder dir (found ++ [(id, own)]) rest file := by
  have hlookup (other : String) : ((found ++ [(id, own)]).lookup other).isSome = false ↔
      (found.lookup other).isSome = false ∧ other ≠ id := by
    rw [List.lookup_append]
    by_cases hother : other = id
    · simp [hother]
    · simp [List.lookup_cons, beq_false_of_ne hother, hother]
  constructor
  · rintro ⟨other, hother, hmissing, hfile⟩
    by_cases hsame : other = id
    · subst hsame
      exact Or.inl hfile
    · have hrest := (List.mem_cons.mp hother).resolve_left hsame
      exact Or.inr ⟨other, hrest, (hlookup other).mpr ⟨hmissing, hsame⟩, hfile⟩
  · rintro (rfl | ⟨other, hother, hmissing, hfile⟩)
    · exact ⟨id, List.mem_cons_self, h, rfl⟩
    · exact ⟨other, List.mem_cons_of_mem id hother, ((hlookup other).mp hmissing).1, hfile⟩

end Placeholders

theorem exists_fillMissing (machine : Machine) (dir : Path) (paths : AssetPaths)
    (ids : List String) (s : Session) :
    ∃ paths' files, (∀ file, file ∈ files ↔ IsPlaceholder dir paths ids file) ∧
      ∃ fault? t, WritingEnds machine files s fault? t ∧
        (fillMissing dir paths ids machine).outcome s = (orFault paths' fault?, t) := by
  induction ids generalizing paths s with
  | nil =>
      refine ⟨paths, [], fun file ↦ ⟨fun h ↦ absurd h List.not_mem_nil, ?_⟩, none, s, ?_, rfl⟩
      · rintro ⟨id, hid, _⟩
        exact absurd hid List.not_mem_nil
      · exact .written fun _ hfile ↦ absurd hfile List.not_mem_nil
  | cons id rest ih =>
      unfold fillMissing
      cases hid : (paths.lookup id).isSome with
      | true =>
          rw [if_pos rfl]
          obtain ⟨paths', files, hfiles, hrun⟩ := ih paths s
          exact ⟨paths', files,
            fun file ↦ (hfiles file).trans (isPlaceholder_cons_of_found hid).symm, hrun⟩
      | false =>
          -- the placeholder is written first, and for those that follow its node counts as found
          rw [if_neg Bool.false_ne_true]
          obtain ⟨paths', files, hfiles, hrun⟩ := ih (paths ++ [(id, drawingPath dir id)])
            { s with files := s.files.write (drawingPath dir id) (.text (placeholderSvg id)) }
          refine ⟨paths', (drawingPath dir id, .text (placeholderSvg id)) :: files, fun file ↦ ?_,
            exists_writeData_bind hrun⟩
          rw [List.mem_cons, hfiles]
          exact (isPlaceholder_cons_of_missing hid _).symm

/-! ## Bitmaps -/

/-- The bitmap of a node, if the export gave one that is not empty. -/
def bitmap? (rendered : List (String × String)) (id : String) : Option String :=
  (rendered.lookup id).filter (· != "")

theorem bitmap?_eq_some {rendered : List (String × String)} {id data : String} :
    bitmap? rendered id = some data ↔ rendered.lookup id = some data ∧ data ≠ "" := by
  rw [bitmap?, Option.filter_eq_some_iff, bne_iff_ne]

def bitmapPath (dir : Path) (scale : Int) (id : String) : Path :=
  dir ++ [Naming.bitmapAsset id scale "png"]

def bitmapFiles (dir : Path) (scale : Int) (rendered : List (String × String))
    (nodes : List (String × ImageFill)) : Files :=
  nodes.filterMap fun node ↦
    (bitmap? rendered node.1).map fun data ↦ (bitmapPath dir scale node.1, .text data)

theorem mem_bitmapFiles {dir : Path} {scale : Int} {rendered : List (String × String)}
    {nodes : List (String × ImageFill)} {file : Path × Content} :
    file ∈ bitmapFiles dir scale rendered nodes ↔ ∃ node ∈ nodes, ∃ data,
      bitmap? rendered node.1 = some data ∧ file = (bitmapPath dir scale node.1, .text data) := by
  rw [bitmapFiles, List.mem_filterMap]
  constructor
  · rintro ⟨node, hnode, hfile⟩
    obtain ⟨data, hdata, rfl⟩ := Option.map_eq_some_iff.mp hfile
    exact ⟨node, hnode, data, hdata, rfl⟩
  · rintro ⟨node, hnode, data, hdata, rfl⟩
    exact ⟨node, hnode, Option.map_eq_some_iff.mpr ⟨data, hdata, rfl⟩⟩

/-- The bitmaps that a stylesheet may point at. -/
def HasBitmap (scale : Int) (rendered : List (String × String))
    (nodes : List (String × ImageFill)) (asset : String × Css.ImageAsset) : Prop :=
  ∃ node ∈ nodes, (bitmap? rendered node.1).isSome = true ∧
    asset.2.address = Naming.bitmapAddress node.1 scale

theorem HasBitmap.cons {scale : Int} {rendered : List (String × String)}
    {node : String × ImageFill} {nodes : List (String × ImageFill)}
    {asset : String × Css.ImageAsset} (h : HasBitmap scale rendered nodes asset) :
    HasBitmap scale rendered (node :: nodes) asset := by
  obtain ⟨other, hother, h⟩ := h
  exact ⟨other, List.mem_cons_of_mem node hother, h⟩

theorem exists_writeBitmaps (machine : Machine) (dir : Path) (scale : Int)
    (rendered : List (String × String)) (assets : List (String × Css.ImageAsset))
    (nodes : List (String × ImageFill)) (s : Session) :
    ∃ assets', (∀ asset ∈ assets', asset ∈ assets ∨ HasBitmap scale rendered nodes asset) ∧
      ∃ fault? t, WritingEnds machine (bitmapFiles dir scale rendered nodes) s fault? t ∧
        (writeBitmaps machine dir scale rendered assets nodes).outcome s =
          (orFault assets' fault?, t) := by
  induction nodes generalizing assets s with
  | nil =>
      refine ⟨assets, fun asset hasset ↦ Or.inl hasset, none, s, ?_, rfl⟩
      exact .written fun _ hfile ↦ absurd hfile List.not_mem_nil
  | cons node rest ih =>
      obtain ⟨id, fill⟩ := node
      unfold writeBitmaps bitmapFiles
      rw [List.filterMap_cons]
      dsimp only
      cases hdata : bitmap? rendered id with
      | none =>
          obtain ⟨assets', hassets, hrun⟩ := ih assets s
          rw [bitmap?] at hdata
          rw [hdata]
          exact ⟨assets', fun asset hasset ↦ (hassets asset hasset).imp_right .cons, hrun⟩
      | some data =>
          have hsome : (bitmap? rendered id).isSome = true := by rw [hdata]; rfl
          obtain ⟨assets', hassets, hrun⟩ := ih
            (upsert (·.1 == id) (id, ⟨Naming.bitmapAddress id scale, fill.scaleMode⟩) assets)
            { s with files := s.files.write (bitmapPath dir scale id) (.text data) }
          rw [bitmap?] at hdata
          rw [hdata]
          refine ⟨assets', fun asset hasset ↦ ?_, exists_writeData_bind hrun⟩
          rcases hassets asset hasset with hasset | hasset
          · rcases mem_upsert hasset with rfl | hasset
            · exact Or.inr ⟨(id, fill), List.mem_cons_self, hsome, rfl⟩
            · exact Or.inl hasset
          · exact Or.inr hasset.cons

end DesignToWeb.Service
