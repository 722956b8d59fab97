import BuildLens.Proofs.Workspace.Innermost
import BuildLens.Proofs.Workspace.Looks

/-!
# To which folder a path belongs

The folders that contain a path form a chain, each of them lying in the next one. On POSIX systems
no two folders of a workspace have one root, so that the chain has one innermost folder. It does not
depend on the order in which the folders were added.

Main definitions:

- `Workspace.owner?`: the folder that is looked up for a path.
- `Workspace.Owns`: the folder contains the path and lies in every other one that does.
- `Workspace.Separate`: the folders are folders of a POSIX system with roots of their own.

Main results:

- `Workspace.Owns.unique`: one folder at most owns a path.
- `Workspace.owner?_eq_some_iff_owns`: the folder that is looked up owns the path, in whatever order
  the folders were added.
- `Engine.separate_run`: after every run no two folders have one root.
-/

namespace BuildLens

namespace Workspace

variable {w w' : Workspace} {path : FilePath} {f g : Folder}

/-- The folder that is looked up for a path. -/
def owner? (w : Workspace) (path : FilePath) : Option Folder :=
  (w.innermost? path).bind w.model?

/-- The roots of the folders in order. -/
def roots (w : Workspace) : List FilePath := w.folders.map Folder.root

/-- The folder is one of the workspace, contains the path, and lies in every folder that contains
the path. -/
structure Owns (w : Workspace) (path : FilePath) (f : Folder) : Prop where
  mem : f ∈ w.folders
  inside : path.isUnder f.root = true
  innermost : ∀ g ∈ w.folders, path.isUnder g.root = true → f.root.isUnder g.root = true

/-- The folders are folders of a POSIX system, and no two of them have one root. -/
structure Separate (w : Workspace) : Prop where
  posix : ∀ r ∈ w.roots, ∃ p, r = .posix p
  distinct : w.roots.Nodup

theorem Separate.of_perm (h : w.Separate) (hperm : w'.roots.Perm w.roots) : w'.Separate where
  posix r hr := h.posix r (hperm.mem_iff.mp hr)
  distinct := hperm.nodup_iff.mpr h.distinct

theorem mem_folders_iff : f ∈ w.folders ↔ ∃ i ∈ w.publishedIds, w.model? i = some f :=
  List.mem_filterMap

/-! ## The folder that is looked up -/

theorem owns_of_owner? (h : w.owner? path = some f) : w.Owns path f := by
  obtain ⟨m, hm, hf⟩ := Option.bind_eq_some_iff.mp h
  obtain ⟨hmem, b, hb, hcontains, hinner⟩ := innermost_of_innermost? hm
  obtain rfl : b = f := Option.some.inj (hb.symm.trans hf)
  refine ⟨mem_folders_iff.mpr ⟨m, hmem, hf⟩, hcontains, fun g hg => ?_⟩
  obtain ⟨i, hi, hgi⟩ := mem_folders_iff.mp hg
  exact hinner i hi g hgi

theorem owner?_eq_none_iff :
    w.owner? path = none ↔ ∀ f ∈ w.folders, path.isUnder f.root = false := by
  constructor
  · intro h f hf
    obtain ⟨i, hi, hfi⟩ := mem_folders_iff.mp hf
    cases hm : w.innermost? path with
    | none => exact outside_of_innermost? hm i hi f hfi
    | some m =>
      -- An innermost model has a folder, which would be the answer.
      obtain ⟨-, b, hb, -⟩ := innermost_of_innermost? hm
      rw [owner?, hm, Option.bind_some, hb] at h
      cases h
  · intro h
    rw [Option.eq_none_iff_forall_ne_some]
    intro f howner
    have howns := owns_of_owner? howner
    exact absurd howns.inside (Bool.eq_false_iff.mp (h f howns.mem))

/-- One folder at most owns a path. -/
theorem Owns.unique (h : w.Separate) (hf : w.Owns path f) (hg : w.Owns path g) : f = g := by
  apply List.inj_on_of_nodup_map h.distinct hf.mem hg.mem
  have hfg := hf.innermost g hg.mem hg.inside
  have hgf := hg.innermost f hf.mem hf.inside
  obtain ⟨p, hp⟩ := h.posix f.root (List.mem_map_of_mem hf.mem)
  obtain ⟨q, hq⟩ := h.posix g.root (List.mem_map_of_mem hg.mem)
  rw [hp, hq] at hfg hgf ⊢
  rw [FilePath.isUnder_antisymm_posix hfg hgf]

theorem owner?_eq_some_iff (h : w.Separate) : w.owner? path = some f ↔ w.Owns path f := by
  constructor
  · exact owns_of_owner?
  · intro hf
    cases howner : w.owner? path with
    | none =>
      rw [owner?_eq_none_iff] at howner
      exact absurd hf.inside (Bool.eq_false_iff.mp (howner f hf.mem))
    | some g => rw [(owns_of_owner? howner).unique h hf]

/-! ## Orders in which folders are added -/

/-- Who owns a path depends on the roots of the folders alone. -/
theorem Owns.transfer (hroots : ∀ r, r ∈ w'.roots ↔ r ∈ w.roots) (hf : w.Owns path f) :
    ∃ g, w'.Owns path g ∧ g.root = f.root := by
  obtain ⟨g, hg, hroot⟩ := List.mem_map.mp ((hroots f.root).mpr (List.mem_map_of_mem hf.mem))
  refine ⟨g, ⟨hg, hroot ▸ hf.inside, fun k hk hinside => ?_⟩, hroot⟩
  obtain ⟨k', hk', hsame⟩ := List.mem_map.mp ((hroots k.root).mp (List.mem_map_of_mem hk))
  rw [hroot, ← hsame]
  exact hf.innermost k' hk' (hsame ▸ hinside)

theorem Owns.congr (hfolders : ∀ g, g ∈ w'.folders ↔ g ∈ w.folders) (hf : w.Owns path f) :
    w'.Owns path f where
  mem := (hfolders f).mpr hf.mem
  inside := hf.inside
  innermost g hg := hf.innermost g ((hfolders g).mp hg)

theorem root_owner?_eq_some_iff (h : w.Separate) {r : FilePath} :
    (w.owner? path).map Folder.root = some r ↔ ∃ f, w.Owns path f ∧ f.root = r := by
  simp only [Option.map_eq_some_iff, owner?_eq_some_iff h]

end Workspace

/-- The keys of the roots are those under which the models are published. -/
theorem View.Sound.map_key_roots {v : View} (hv : v.Sound) :
    v.workspace.roots.map FilePath.key = v.workspace.published.names := by
  have hkeyOf : ∀ e ∈ v.workspace.published.entries,
      ((v.workspace.model? e.2).map fun f => f.root.key) = some e.1 := by
    intro e he
    have hfind : v.workspace.published.find? e.1 = some e.2 := Table.find?_eq_some_iff.mpr he
    obtain ⟨hlt, hkey⟩ := hv.published e.1 e.2 hfind
    obtain ⟨f, hf⟩ := Workspace.exists_model? hlt
    rw [hf, Option.map_some, ← hkey, Workspace.keyOf_of_model? hf]
  rw [Workspace.roots, Workspace.folders, Workspace.publishedIds, List.map_map,
    List.map_filterMap, List.filterMap_map, Table.names, ← List.filterMap_eq_map]
  exact List.filterMap_congr hkeyOf

namespace Engine

/-- After every run no two folders have one root. -/
theorem separate_run (context : Context) (events : List Event)
    (hposix : ∀ r ∈ ((fresh context).run events).workspace.roots, ∃ p, r = .posix p) :
    ((fresh context).run events).workspace.Separate where
  posix := hposix
  distinct := by
    have hkeys := (sound_run context events).map_key_roots
    apply List.Nodup.of_map FilePath.key
    exact hkeys ▸ ((fresh context).run events).workspace.published.distinct

end Engine

/-- Among folders of POSIX systems with roots of their own, a path for which no folder is looked up
lies in none of them, and any other path belongs to the folder that contains it and lies in every
other one that does. The same folder is found in whatever order the folders were added, and its root
depends on nothing but the roots of all folders. -/
theorem Workspace.owner?_eq_some_iff_owns {w : Workspace} (h : w.Separate) (path : FilePath) :
    (w.owner? path = none ↔ ∀ f ∈ w.folders, path.isUnder f.root = false) ∧
    (∀ f, w.owner? path = some f ↔ w.Owns path f) ∧
    (∀ w' : Workspace, w'.folders.Perm w.folders → w'.owner? path = w.owner? path) ∧
    ∀ w' : Workspace, w'.roots.Perm w.roots →
      (w'.owner? path).map Folder.root = (w.owner? path).map Folder.root := by
  refine ⟨owner?_eq_none_iff, fun f => owner?_eq_some_iff h, fun w' hperm => ?_,
    fun w' hperm => ?_⟩
  · have h' : w'.Separate := h.of_perm (hperm.map Folder.root)
    apply Option.ext
    intro f
    rw [owner?_eq_some_iff h, owner?_eq_some_iff h']
    exact ⟨Owns.congr fun g => hperm.mem_iff.symm, Owns.congr fun g => hperm.mem_iff⟩
  · have h' : w'.Separate := h.of_perm hperm
    apply Option.ext
    intro r
    rw [root_owner?_eq_some_iff h, root_owner?_eq_some_iff h']
    constructor
    · rintro ⟨f, hf, rfl⟩
      exact hf.transfer fun r => hperm.mem_iff.symm
    · rintro ⟨f, hf, rfl⟩
      exact hf.transfer fun r => hperm.mem_iff

namespace Engine

/-- The workspace of a POSIX system after folders were added one after the other. -/
def afterAdding (folders : List EditorFolder) : Workspace :=
  ((fresh {}).run (folders.map fun f => .call (.add f))).workspace

/-- The folders `/a`, `/a/b` and `//a`. -/
def nestedFolders : List EditorFolder := [{ uri := "/a" }, { uri := "/a/b" }, { uri := "//a" }]

/-- The inner one of the folders, `/a/b`. -/
def nestedRoot : FilePath := .posix ⟨.single, [⟨['a'], by decide⟩, ⟨['b'], by decide⟩]⟩

/-- A file in the inner folder, `/a/b/c`. -/
def nestedFile : FilePath :=
  .posix ⟨.single, [⟨['a'], by decide⟩, ⟨['b'], by decide⟩, ⟨['c'], by decide⟩]⟩

theorem roots_afterAdding_nestedFolders : (afterAdding nestedFolders).roots =
    [.posix ⟨.single, [⟨['a'], by decide⟩]⟩, nestedRoot,
      .posix ⟨.double, [⟨['a'], by decide⟩]⟩] := by
  decide +kernel

theorem separate_afterAdding_nestedFolders : (afterAdding nestedFolders).Separate := by
  apply separate_run
  intro r hr
  rw [← afterAdding, roots_afterAdding_nestedFolders] at hr
  simp only [List.mem_cons, List.not_mem_nil, or_false] at hr
  rcases hr with rfl | rfl | rfl <;> exact ⟨_, rfl⟩

/-- The file belongs to the inner folder, also when the folders were added the other way round. -/
theorem owner?_eq_some_iff_owns_nestedFolders :
    (afterAdding nestedFolders).Separate ∧
    ((afterAdding nestedFolders).owner? nestedFile).map Folder.root = some nestedRoot ∧
    ((afterAdding nestedFolders.reverse).owner? nestedFile).map Folder.root = some nestedRoot := by
  have hfound : ((afterAdding nestedFolders).owner? nestedFile).map Folder.root =
      some nestedRoot := by
    decide +kernel
  obtain ⟨-, -, -, horder⟩ :=
    Workspace.owner?_eq_some_iff_owns separate_afterAdding_nestedFolders nestedFile
  refine ⟨separate_afterAdding_nestedFolders, hfound, ?_⟩
  rw [horder _ (by decide +kernel), hfound]

end Engine

end BuildLens
