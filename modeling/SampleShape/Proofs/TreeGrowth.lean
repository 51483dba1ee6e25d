/-
# What making directories and storing a file change

A tree is known by what stands at each location (`Tree.entry?`).  Making the directories
of a path adds directories at the locations of that path and of those on its way, and leaves
every entry that is there as it is (`Tree.Grown`, `grown_makePath`), whether or not it gets
to the end: a failure leaves the directories made so far.  Storing a file changes what
stands at its own location only (`write_eq_ok_iff`).

Neither removes a directory or moves the working directory, and a walk needs only directories.
So a location that a path leads to before is the one that it leads to afterwards
(`locate_of_directories`): what was written to a path is read back from it, and the directories
that were made are named by paths of the final tree.
-/

import SampleShape.Files.Tree

namespace SampleShape

/-- Whether a path is another one, or leads to a directory on its way. -/
def Path.OnWay (q p : Path) : Prop := q.root = p.root ∧ q.names <+: p.names

namespace Tree

variable {t t' t'' : Tree} {l l' : Location} {e e' : Entry} {p : Path}

/-! ### Entries -/

theorem lookup_put (l l' : Location) (e : Entry) (entries : List (Location × Entry)) :
    (put l e entries).lookup l' = if l' = l then some e else entries.lookup l' := by
  have hcons : ∀ (m : Location) (d : Entry) (rest : List (Location × Entry)),
      ((m, d) :: rest).lookup l' = if l' = m then some d else rest.lookup l' := by
    intro m d rest
    rw [List.lookup_cons]
    by_cases h : l' = m
    · simp [h]
    · rw [beq_false_of_ne h, if_neg h]
  induction entries with
  | nil => exact hcons l e []
  | cons entry rest ih =>
    obtain ⟨m, d⟩ := entry
    rw [put]
    split
    · rename_i h
      subst h
      rw [hcons, hcons]
      split <;> rfl
    · rename_i hne
      rw [hcons, hcons, ih]
      by_cases h : l' = m
      · rw [if_pos h, if_pos h, if_neg (h ▸ hne)]
      · rw [if_neg h, if_neg h]

theorem entry?_of_isPrefixOf (h : l.isPrefixOf t.home) : t.entry? l = some .directory := by
  unfold entry?
  rw [if_pos h]

/-- What is set where no directory stands is seen there, and all else is as before. -/
theorem entry?_set (h : t.entry? l ≠ some .directory) (e : Entry) (l' : Location) :
    entry? (t.set l e) l' = if l' = l then some e else t.entry? l' := by
  unfold entry? set
  rw [lookup_put]
  by_cases habove : l'.isPrefixOf t.home
  · have hne : l' ≠ l := by
      rintro rfl
      exact h (entry?_of_isPrefixOf habove)
    rw [if_pos habove, if_neg hne, if_pos habove]
  · rw [if_neg habove, if_neg habove]

theorem directory_set (h : t.entry? l ≠ some .directory) (hl' : t.entry? l' = some .directory) :
    entry? (t.set l e) l' = some .directory := by
  have hne : l' ≠ l := fun heq => h (heq ▸ hl')
  rw [entry?_set h, if_neg hne, hl']

/-! ### Walks -/

section Walks

variable (hdirectories : ∀ l, t.entry? l = some .directory → t'.entry? l = some .directory)
include hdirectories

/-- **A walk succeeds the same way** where all directories are still in place. -/
theorem walk_of_directories {names : List Name} {start : Location}
    (h : t.walk start names = .ok l) : t'.walk start names = .ok l := by
  induction names generalizing start with
  | nil => exact h
  | cons name rest ih =>
    rw [walk] at h ⊢
    cases hstart : t.entry? start with
    | none => simp [hstart] at h
    | some entry =>
      cases entry with
      | file => simp [hstart] at h
      | directory =>
        simp only [hstart, hdirectories start hstart] at h ⊢
        split at h
        · cases h
        · split at h
          · rename_i hlen hparent
            rw [if_neg hlen, if_pos hparent]
            exact ih h
          · rename_i hlen hparent
            rw [if_neg hlen, if_neg hparent]
            exact ih h

theorem locate_of_directories (hhome : t'.home = t.home) (h : t.locate p = .ok l) :
    t'.locate p = .ok l := by
  unfold locate start at h ⊢
  rw [hhome]
  split at h
  · cases h
  split at h
  · cases h
  split at h
  · cases h
  rename_i hnull hlen
  rw [if_neg hnull, if_neg hlen]
  cases hwalk : t.walk (if p.root.isEmpty then t.home else [])
    (p.names.map Utf8.nameBytes) with
  | error cause =>
    rw [hwalk] at h
    cases h
  | ok m =>
    rw [hwalk] at h
    rw [walk_of_directories hdirectories hwalk]
    exact h

end Walks

/-! ### Growth -/

/-- Whether a tree is another one with directories added at the locations of some paths. -/
structure Grown (paths : Path → Prop) (t t' : Tree) : Prop where
  home : t'.home = t.home
  kept : ∀ {l e}, t.entry? l = some e → t'.entry? l = some e
  made : ∀ {l e}, t'.entry? l = some e →
    t.entry? l = some e ∨ e = .directory ∧ ∃ q, paths q ∧ t'.locate q = .ok l

section Growth

variable {paths : Path → Prop}

theorem grown_refl (t : Tree) : Grown paths t t := ⟨rfl, id, Or.inl⟩

theorem Grown.trans (h : Grown paths t t') (h' : Grown paths t' t'') : Grown paths t t'' where
  home := h'.home.trans h.home
  kept hl := h'.kept (h.kept hl)
  made hl := by
    rcases h'.made hl with hl | hl
    · refine (h.made hl).imp_right fun ⟨he, q, hq, hlocate⟩ => ⟨he, q, hq, ?_⟩
      exact locate_of_directories (fun _ => h'.kept) h'.home hlocate
    · exact Or.inr hl

theorem Grown.mono {paths' : Path → Prop} (hpaths : ∀ q, paths q → paths' q)
    (h : Grown paths t t') : Grown paths' t t' where
  home := h.home
  kept := h.kept
  made hl := (h.made hl).imp_right fun ⟨he, q, hq, hlocate⟩ => ⟨he, q, hpaths q hq, hlocate⟩

/-- Growth leaves the files as they are, and adds none. -/
theorem Grown.file_iff (h : Grown paths t t') (l : Location) (content : List UInt8) :
    t'.entry? l = some (.file content) ↔ t.entry? l = some (.file content) := by
  refine ⟨fun hl => (h.made hl).resolve_right ?_, h.kept⟩
  rintro ⟨he, -⟩
  cases he

/-- A directory is made where the path leads, if nothing is there. -/
theorem makeDirectory_eq_ok_iff : t.makeDirectory p = .ok t' ↔
    ∃ l, t.locate p = .ok l ∧ t.entry? l = none ∧ t' = t.set l .directory := by
  unfold makeDirectory
  cases hlocate : t.locate p with
  | error fault => simp [bind, Except.bind]
  | ok l =>
    simp only [bind, Except.bind, Except.ok.injEq, exists_eq_left']
    cases hl : t.entry? l with
    | some e => simp
    | none => simp [eq_comm]

theorem grown_makeDirectory (hp : paths p) (h : t.makeDirectory p = .ok t') :
    Grown paths t t' := by
  obtain ⟨l, hlocate, hl, rfl⟩ := makeDirectory_eq_ok_iff.1 h
  have hfree : t.entry? l ≠ some .directory := by
    rw [hl]
    nofun
  have hset := entry?_set hfree .directory
  refine ⟨rfl, fun {m e} hm => ?_, fun {m e} hm => ?_⟩
  · have hne : m ≠ l := by
      rintro rfl
      cases hl.symm.trans hm
    rw [hset, if_neg hne, hm]
  · rw [hset] at hm
    split at hm
    · rename_i heq
      refine Or.inr ⟨(Option.some.inj hm).symm, p, hp, ?_⟩
      rw [heq]
      exact locate_of_directories (fun _ => directory_set hfree) rfl hlocate
    · exact Or.inl hm

theorem grown_ensureDirectory (hp : paths p) (h : t.ensureDirectory p = .ok t') :
    Grown paths t t' := by
  unfold ensureDirectory at h
  split at h
  · rename_i hmake
    obtain rfl := Except.ok.inj h
    exact grown_makeDirectory hp hmake
  · cases h
  · cases h
  · split at h
    · obtain rfl := Except.ok.inj h
      exact grown_refl t
    · cases h

end Growth

/-- Directories are made on the way to a path only, also where a failure stops it. -/
theorem grown_makeDirectories (root : Text) (names : List Text) (t : Tree) :
    Grown (·.OnWay ⟨root, names.reverse⟩) t (makeDirectories root names t).2 := by
  induction names generalizing t with
  | nil =>
    rw [makeDirectories]
    split
    · rename_i hensure
      exact grown_ensureDirectory ⟨rfl, List.prefix_refl _⟩ hensure
    · exact grown_refl t
  | cons name above ih =>
    have hself : Path.OnWay ⟨root, (name :: above).reverse⟩ ⟨root, (name :: above).reverse⟩ :=
      ⟨rfl, List.prefix_refl _⟩
    -- what is on the way to the parent is on the way to the path
    have habove : Grown (·.OnWay ⟨root, (name :: above).reverse⟩) t
        (makeDirectories root above t).2 :=
      (ih t).mono fun q ⟨hroot, hnames⟩ => ⟨hroot, hnames.trans (by simp)⟩
    rw [makeDirectories]
    split
    · rename_i hensure
      exact grown_ensureDirectory hself hensure
    · split
      · rename_i hmade
        rwa [hmade] at habove
      · rename_i hmade
        rw [hmade] at habove
        split
        · rename_i hensure
          exact habove.trans (grown_ensureDirectory hself hensure)
        · exact habove
    · exact grown_refl t

/-- **Making a path adds directories on the way to it,** and changes nothing else. -/
theorem grown_makePath (t : Tree) (p : Path) : Grown (·.OnWay p) t (t.makePath p).2 := by
  have h := grown_makeDirectories p.root p.names.reverse t
  rwa [List.reverse_reverse] at h

/-- Whether no directory is lost, a new one is on the way to a path, and the working directory
is the same. -/
structure DirectoriesAdded (p : Path) (t t' : Tree) : Prop where
  home : t'.home = t.home
  kept : ∀ l, t.entry? l = some .directory → t'.entry? l = some .directory
  made : ∀ l, t'.entry? l = some .directory →
    t.entry? l = some .directory ∨ ∃ q : Path, q.OnWay p ∧ t'.locate q = .ok l

theorem Grown.directoriesAdded (h : Grown (·.OnWay p) t t') : DirectoriesAdded p t t' :=
  ⟨h.home, fun _ => h.kept, fun _ hl => (h.made hl).imp_right And.right⟩

theorem ensureDirectory_of_isDirectory (h : t.isDirectory p = true) :
    t.ensureDirectory p = .ok t := by
  have hat : t.at? p = some .directory := by simpa [isDirectory] using h
  unfold at? at hat
  split at hat
  · rename_i l hlocate
    have hmake : t.makeDirectory p = .error (.refused .exists p.text) := by
      rw [makeDirectory, hlocate]
      simp [hat, bind, Except.bind]
    rw [ensureDirectory, hmake]
    exact if_pos h
  · cases hat

/-- Where a directory is in place, making its path does nothing. -/
theorem makePath_of_isDirectory (h : t.isDirectory p = true) : t.makePath p = (.ok (), t) := by
  have hensure := ensureDirectory_of_isDirectory h
  obtain ⟨root, names⟩ := p
  rw [makePath]
  cases hnames : names.reverse with
  | nil =>
    obtain rfl := List.reverse_eq_nil_iff.1 hnames
    rw [makeDirectories, hensure]
  | cons name above =>
    have hpath : names = (name :: above).reverse := by rw [← hnames, List.reverse_reverse]
    rw [makeDirectories, ← hpath, hensure]

/-! ### Storing a file -/

/-- **Storing a file** puts it where the path leads, unless a directory is there. -/
theorem write_eq_ok_iff {content : List UInt8} : t.write p content = .ok t' ↔
    ∃ l, t.locate p = .ok l ∧ t.entry? l ≠ some .directory ∧ t' = t.set l (.file content) := by
  unfold write
  cases hlocate : t.locate p with
  | error fault => simp [bind, Except.bind]
  | ok l =>
    simp only [bind, Except.bind, Except.ok.injEq, exists_eq_left']
    split
    · rename_i hl
      simp [hl]
    · rename_i hl
      simp only [Except.ok.injEq]
      exact ⟨fun h => ⟨hl, h.symm⟩, fun h => h.2.symm⟩

/-- What becomes of a tree in which a file is stored and the directories above it are made. -/
structure Stored (p : Path) (content : List UInt8) (t t' : Tree) : Prop
    extends DirectoriesAdded p.parent t t' where
  content : t'.read p = .ok content
  others : ∀ l, t'.locate p ≠ .ok l → ∀ bytes,
    t'.entry? l = some (.file bytes) ↔ t.entry? l = some (.file bytes)

/-- **A file that is stored is read back,** and the other files stay. -/
theorem Grown.stored {content : List UInt8} (h : Grown (·.OnWay p.parent) t t')
    (hwrite : t'.write p content = .ok t'') : Stored p content t t'' := by
  obtain ⟨l, hlocate, hl, rfl⟩ := write_eq_ok_iff.1 hwrite
  have hset := entry?_set hl (.file content)
  have hkept : ∀ m, t'.entry? m = some .directory →
      entry? (t'.set l (.file content)) m = some .directory := fun m => directory_set hl
  have hlocate' := locate_of_directories hkept rfl hlocate
  refine ⟨⟨h.home, fun m hm => hkept m (h.kept hm), fun m hm => ?_⟩, ?_, fun m hm bytes => ?_⟩
  · rw [hset] at hm
    split at hm
    · cases hm
    · refine (h.directoriesAdded.made m hm).imp_right fun ⟨q, hq, hq'⟩ => ⟨q, hq, ?_⟩
      exact locate_of_directories hkept rfl hq'
  · rw [read, hlocate']
    simp [hset, bind, Except.bind]
  · have hne : m ≠ l := by
      rintro rfl
      exact hm hlocate'
    rw [hset, if_neg hne, h.file_iff]

end Tree
end SampleShape
