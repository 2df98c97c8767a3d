import Registrar.Proofs.Files.Tree

/-!
# Writing into a file tree

What each operation on a tree comes to, by what its path leads to, and what it leaves. Making directories touches no file
(`Grows`). Writing at the end of a file, whose directories may have to be made, adds to the content to which the path led
and touches no other file (`Extends`, `Writable.exec`). What fails is refused by the system, unless it is not even asked
(`Unasked`, `refusal_or_unasked`).
-/

namespace Registrar

namespace FileTree

/-! ## Work on a tree, step by step -/

section

variable {α β : Type}

/-- What work on a tree comes to, and the tree that it leaves. -/
def exec (x : Access α) (tree : FileTree) : Except FileError α × FileTree := x.run.run tree

@[simp] theorem exec_pure (a : α) (tree : FileTree) : exec (pure a) tree = (.ok a, tree) := rfl

@[simp] theorem exec_throw (e : FileError) (tree : FileTree) : exec (throw e : Access α) tree = (.error e, tree) := rfl

@[simp] theorem exec_get (tree : FileTree) : exec get tree = (.ok tree, tree) := rfl

@[simp] theorem exec_modify (g : FileTree → FileTree) (tree : FileTree) :
    exec (modify g) tree = (.ok ⟨⟩, g tree) := rfl

@[simp] theorem exec_ofExcept (x : Except FileError α) (tree : FileTree) : exec (ofExcept x) tree = (x, tree) := by
  cases x <;> rfl

theorem exec_bind (x : Access α) (g : α → Access β) (tree : FileTree) :
    exec (x >>= g) tree = match exec x tree with
      | (.ok a, tree') => exec (g a) tree'
      | (.error e, tree') => (.error e, tree') := by
  unfold exec
  rw [ExceptT.run_bind, StateT.run_bind]
  rcases x.run.run tree with ⟨_ | _, _⟩ <;> rfl

theorem exec_tryCatch (x : Access α) (rescue : FileError → Access α) (tree : FileTree) :
    exec (tryCatch x rescue) tree = match exec x tree with
      | (.ok a, tree') => (.ok a, tree')
      | (.error e, tree') => exec (rescue e) tree' := by
  show (ExceptT.tryCatch x rescue).run.run tree = _
  cases h : exec x tree with
  | mk result after =>
    have hrun : StateT.run x tree = (result, after) := h
    rw [ExceptT.tryCatch, ExceptT.run_mk, StateT.run_bind, hrun]
    cases result <;> rfl

theorem exec_discard (x : Access α) (tree : FileTree) :
    exec (discard x) tree = ((exec x tree).1.map fun _ => ⟨⟩, (exec x tree).2) := by
  show (Functor.map (fun _ => PUnit.unit) x : Access PUnit).run.run tree = _
  cases h : exec x tree with
  | mk result after =>
    have hrun : StateT.run x tree = (result, after) := h
    rw [ExceptT.run_map, StateT.run_map, ExceptT.run, hrun]
    cases result <;> rfl

end

variable {tree tree' tree'' : FileTree} {place : Place} {p : Path} {text : Text} {bytes added more : Utf8.Bytes}

/-- A path seen from the root is that of the tree. -/
theorem exec_absolute (p : Path) (tree : FileTree) : exec (system.absolute p) tree = (tree.absolute? p, tree) := by
  have hcurrent : exec system.currentDirectory tree = (tree.currentPath?, tree) := by
    show exec (get >>= fun tree => ofExcept tree.currentPath?) tree = _
    rw [exec_bind, exec_get]
    exact exec_ofExcept _ _
  unfold FileSystem.absolute absolute?
  split
  · rfl
  · rw [exec_bind, hcurrent]
    cases tree.currentPath? <;> rfl

/-! ## What a path leads to -/

/-- What there is where a path leads. -/
def at? (tree : FileTree) (p : Path) : Except FileError Kind := (tree.place? p).map tree.kindAt

/-- The content of the file to which a path leads. -/
def content? (tree : FileTree) (p : Path) : Option Utf8.Bytes :=
  match tree.at? p with
  | .ok kind => kind.content?
  | .error _ => none

theorem at?_eq_ok {kind : Kind} :
    tree.at? p = .ok kind ↔ ∃ place, tree.place? p = .ok place ∧ tree.kindAt place = kind := by
  unfold at?
  cases tree.place? p <;> simp [Except.map]

theorem content?_eq_some : tree.content? p = some bytes ↔ tree.at? p = .ok (.file bytes) := by
  unfold content?
  rcases tree.at? p with e | kind
  · simp
  · cases kind <;> simp [Kind.content?]

theorem content?_of_place? (h : tree.place? p = .ok place) : tree.content? p = tree.fileAt? place := by
  rw [content?, at?_eq_ok.mpr ⟨place, h, rfl⟩]
  rfl

theorem exec_find (p : Path) (tree : FileTree) :
    exec (find p) tree = ((tree.place? p).map fun place => (place, tree.entry? place), tree) := by
  rw [← follow_eq_place?, find, exec_bind, exec_get]
  simp only [exec_bind, exec_ofExcept]
  cases tree.follow p <;> rfl

theorem exec_isDirectory (p : Path) (tree : FileTree) :
    exec (isDirectory p) tree = (match tree.at? p with
      | .ok .nothing => .error (.refused .notFound p.render)
      | .ok (.file _) => .ok false
      | .ok .directory => .ok true
      | .error e => .error e, tree) := by
  rw [isDirectory, exec_bind, exec_find, at?]
  cases tree.place? p with
  | error e => rfl
  | ok place =>
    simp only [Except.map, kindAt]
    rcases tree.entry? place with _ | ⟨_ | _⟩ <;> rfl

theorem exec_read (p : Path) (tree : FileTree) :
    exec (read p) tree = (match tree.at? p with
      | .ok .nothing => .error (.refused .notFound p.render)
      | .ok (.file content) => .ok content
      | .ok .directory => .error (.refused .isDirectory p.render)
      | .error e => .error e, tree) := by
  rw [read, exec_bind, exec_find, at?]
  cases tree.place? p with
  | error e => rfl
  | ok place =>
    simp only [Except.map, kindAt]
    rcases tree.entry? place with _ | ⟨_ | _⟩ <;> rfl

theorem exec_makeDirectory (p : Path) (tree : FileTree) :
    exec (makeDirectory p) tree = match tree.place? p with
      | .error e => (.error e, tree)
      | .ok place =>
        if tree.kindAt place = .nothing then (.ok (), tree.put place (.directory []))
        else (.error (.refused .alreadyExists p.render), tree) := by
  rw [makeDirectory, exec_bind, exec_find]
  cases tree.place? p with
  | error e => rfl
  | ok place =>
    cases hentry : tree.entry? place with
    | none => simp [Except.map, kindAt, hentry, Kind.of]
    | some entry => cases entry <;> simp [Except.map, kindAt, hentry, Kind.of]

/-- Writing puts a file where the path leads, unless there is a directory. -/
theorem exec_writeAfter (kept : Utf8.Bytes → Utf8.Bytes) (p : Path) (htext : Utf8.encode text = .ok bytes)
    (tree : FileTree) :
    exec (writeAfter kept p text) tree = match tree.place? p with
      | .error e => (.error e, tree)
      | .ok place =>
        match tree.kindAt place with
        | .nothing => (.ok (), tree.put place (.file bytes))
        | .file content => (.ok (), tree.put place (.file (kept content ++ bytes)))
        | .directory => (.error (.refused .isDirectory p.render), tree) := by
  rw [writeAfter, exec_bind, exec_find]
  cases tree.place? p with
  | error e => rfl
  | ok place =>
    simp only [Except.map, kindAt]
    rcases tree.entry? place with _ | ⟨_ | _⟩ <;>
      simp [exec_bind, htext, Except.mapError, Kind.of, put_put]

/-- Whether there is anything where a path leads. There is nothing at a path that the system does not take. -/
def exists? (tree : FileTree) (p : Path) : Except FileError Bool :=
  match tree.at? p with
  | .ok kind => .ok (kind ≠ .nothing)
  | .error (.refused refusal path) => if refusal.isAbsence then .ok false else .error (.refused refusal path)
  | .error _ => .ok false

theorem exec_pathExists (p : Path) (tree : FileTree) : exec (system.pathExists p) tree = (tree.exists? p, tree) := by
  have hisDirectory : system.isDirectory = isDirectory := rfl
  rw [FileSystem.pathExists, exec_tryCatch, exec_bind, exec_discard, hisDirectory, exec_isDirectory, exists?]
  cases tree.at? p with
  | ok kind => cases kind <;> rfl
  | error e =>
    cases e with
    | refused refusal path => cases h : refusal.isAbsence <;> simp [Except.map, h]
    | _ => rfl

theorem exists?_eq_true : tree.exists? p = .ok true ↔ ∃ kind, tree.at? p = .ok kind ∧ kind ≠ .nothing := by
  unfold exists?
  cases tree.at? p with
  | ok kind => simp
  | error e =>
    cases e with
    | refused refusal path => cases h : refusal.isAbsence <;> simp [h]
    | _ => simp

theorem content?_of_exists?_eq_false (h : tree.exists? p = .ok false) : tree.content? p = none := by
  refine Option.eq_none_iff_forall_ne_some.mpr fun content hcontent => ?_
  rw [exists?_eq_true.mpr ⟨_, content?_eq_some.mp hcontent, by simp⟩] at h
  cases h

theorem place?_of_untaken? {e : FileError} (h : p.untaken? = some e) : tree.place? p = .error e := by
  rw [place?, names?, h]

theorem exists?_of_untaken? {e : FileError} (h : p.untaken? = some e) : tree.exists? p = .ok false := by
  have hnot := Path.isRefusal_of_untaken? h
  rw [exists?, at?, place?_of_untaken? h]
  cases e with
  | refused refusal path => cases hnot
  | _ => rfl

/-- A path that is taken leads nowhere only if the system refuses. -/
theorem isRefusal_of_place? (hp : p.untaken? = none) {e : FileError} (h : tree.place? p = .error e) :
    e.isRefusal = true := by
  unfold place? at h
  cases hnames : tree.names? p with
  | error e' =>
    rw [hnames] at h
    obtain rfl := Except.error.inj h
    rw [names?, hp] at hnames
    dsimp only at hnames
    split at hnames
    · exact Except.error.inj hnames ▸ rfl
    · split at hnames
      · cases hnames
      · cases hroot : tree.fromRoot tree.removed (p.names.map FileName.ofText) with
        | ok names => simp [hroot, Except.mapError] at hnames
        | error refusal =>
          rw [hroot] at hnames
          exact Except.error.inj hnames ▸ rfl
  | ok names =>
    cases hwalk : tree.walkFrom [] names with
    | ok place => simp [hnames, hwalk, Except.mapError] at h
    | error refusal =>
      simp only [hnames, hwalk] at h
      exact Except.error.inj h ▸ rfl

/-! ## Making directories -/

/-- A tree and one with more directories, and with the same files. -/
structure Grows (tree tree' : FileTree) : Prop extends Keeps tree tree' where
  file : ∀ q, tree'.fileAt? q = tree.fileAt? q

theorem Grows.refl (tree : FileTree) : Grows tree tree := ⟨.refl tree, fun _ => rfl⟩

theorem Grows.trans (h : Grows tree tree') (h' : Grows tree' tree'') : Grows tree tree'' :=
  ⟨h.toKeeps.trans h'.toKeeps, fun q => (h'.file q).trans (h.file q)⟩

/-- Work that does nothing to a tree but make directories, and that fails only if the system refuses. -/
structure MakesDirectories {α : Type} (x : Access α) : Prop where
  grows : ∀ tree, Grows tree (exec x tree).2
  refuses : ∀ tree e, (exec x tree).1 = .error e → e.isRefusal = true

namespace MakesDirectories

variable {α β : Type} {x : Access α}

theorem pure (a : α) : MakesDirectories (pure a : Access α) :=
  ⟨fun tree => .refl tree, fun _ _ h => by simp at h⟩

theorem refuse (refusal : Refusal) (path : Text) : MakesDirectories (throw (.refused refusal path) : Access α) :=
  ⟨fun tree => .refl tree, fun _ _ he => Except.error.inj he ▸ rfl⟩

theorem bind (h : MakesDirectories x) {g : α → Access β} (hg : ∀ a, MakesDirectories (g a)) :
    MakesDirectories (x >>= g) := by
  refine ⟨fun tree => ?_, fun tree e he => ?_⟩
  · have hgrows := h.grows tree
    rw [exec_bind]
    rcases hx : exec x tree with ⟨e | a, after⟩
    · rwa [hx] at hgrows
    · rw [hx] at hgrows
      exact hgrows.trans ((hg a).grows after)
  · have hrefuses := h.refuses tree
    rw [exec_bind] at he
    rcases hx : exec x tree with ⟨e' | a, after⟩
    · rw [hx] at he hrefuses
      exact hrefuses e (Except.error.inj he ▸ rfl)
    · rw [hx] at he
      exact (hg a).refuses after e he

/-- Work with a way out of its failures. -/
theorem rescued (h : MakesDirectories x) {rescue : FileError → Access α}
    (hrescue : ∀ refusal path, MakesDirectories (rescue (.refused refusal path))) :
    MakesDirectories (tryCatch x rescue) := by
  have hway : ∀ e : FileError, e.isRefusal = true → MakesDirectories (rescue e)
    | .refused refusal path, _ => hrescue refusal path
  refine ⟨fun tree => ?_, fun tree e he => ?_⟩
  · have hgrows := h.grows tree
    have hrefuses := h.refuses tree
    rw [exec_tryCatch]
    rcases hx : exec x tree with ⟨e | a, after⟩
    · rw [hx] at hgrows hrefuses
      exact hgrows.trans ((hway e (hrefuses e rfl)).grows after)
    · rw [hx] at hgrows
      exact hgrows
  · have hrefuses := h.refuses tree
    rw [exec_tryCatch] at he
    rcases hx : exec x tree with ⟨e' | a, after⟩
    · rw [hx] at he hrefuses
      exact (hway e' (hrefuses e' rfl)).refuses after e he
    · simp [hx] at he

end MakesDirectories

section

variable (hp : p.untaken? = none)
include hp

theorem isDirectory_makes : MakesDirectories (isDirectory p) := by
  refine ⟨fun tree => by rw [exec_isDirectory]; exact .refl tree, fun tree e he => ?_⟩
  rw [exec_isDirectory, at?] at he
  cases hplace : tree.place? p with
  | error e' =>
    rw [hplace] at he
    exact Except.error.inj he ▸ isRefusal_of_place? hp hplace
  | ok place =>
    rw [hplace] at he
    cases hkind : tree.kindAt place <;> simp [Except.map, hkind] at he
    exact he ▸ rfl

theorem isExistingDirectory_makes : MakesDirectories (system.isExistingDirectory p) := by
  refine (isDirectory_makes hp).rescued fun refusal path => ?_
  dsimp only
  split
  · exact .pure false
  · exact .refuse refusal path

theorem makeDirectory_makes : MakesDirectories (makeDirectory p) := by
  refine ⟨fun tree => ?_, fun tree e he => ?_⟩
  · rw [exec_makeDirectory]
    cases hplace : tree.place? p with
    | error e => exact .refl tree
    | ok place =>
      dsimp only
      split
      · next hnothing =>
        have hnew : (Entry.directory []).children = [] := rfl
        have hnot : tree.kindAt place ≠ .directory := by simp [hnothing]
        refine ⟨keeps_put hnew (reached_of_place? hplace) hnot, fun q => ?_⟩
        rw [fileAt?, kindAt_put hnew (reached_of_place? hplace) hnot, fileAt?]
        split
        · next hq =>
          rw [hq, hnothing]
          rfl
        · rfl
      · exact .refl tree
  · rw [exec_makeDirectory] at he
    cases hplace : tree.place? p with
    | error e' =>
      rw [hplace] at he
      exact Except.error.inj he ▸ isRefusal_of_place? hp hplace
    | ok place =>
      simp only [hplace] at he
      split at he
      · simp at he
      · exact Except.error.inj he ▸ rfl

theorem forgiveExisting_makes (refusal : Refusal) (path : Text) :
    MakesDirectories (system.forgiveExisting p (.refused refusal path)) :=
  (isExistingDirectory_makes hp).bind fun isThere => by
    cases isThere with
    | true => exact .pure _
    | false => exact .refuse refusal path

theorem ensureDirectory_makes : MakesDirectories (system.ensureDirectory p) := by
  refine (makeDirectory_makes hp).rescued fun refusal path => ?_
  cases refusal with
  | notFound => exact .refuse _ path
  | _ => exact forgiveExisting_makes hp _ path

theorem ensureDirectories_makes : MakesDirectories (system.ensureDirectories p) := by
  induction hlength : p.names.length using Nat.strongRecOn generalizing p with
  | _ n ih =>
    rw [FileSystem.ensureDirectories]
    refine (makeDirectory_makes hp).rescued fun refusal path => ?_
    cases refusal with
    | notFound =>
      dsimp only
      split
      · exact .refuse _ path
      · next hne =>
        have hlt : p.parent.names.length < n := by
          have hpos : 0 < p.names.length := List.length_pos_iff.mpr hne
          simp only [Path.parent, List.length_dropLast]
          omega
        exact (ih _ hlt (Path.untaken?_parent hp) rfl).bind fun _ => ensureDirectory_makes hp
    | _ => exact forgiveExisting_makes hp _ path

end

/-- Nothing is made at a path that is not taken. -/
theorem exec_ensureDirectories_of_untaken? {e : FileError} (h : p.untaken? = some e) :
    exec (system.ensureDirectories p) tree = (.error e, tree) := by
  have hnot := Path.isRefusal_of_untaken? h
  have hmake : exec (system.makeDirectory p) tree = (.error e, tree) := by
    show exec (makeDirectory p) tree = _
    rw [exec_makeDirectory, place?_of_untaken? h]
  rw [FileSystem.ensureDirectories, exec_tryCatch, hmake]
  cases e with
  | refused refusal path => cases hnot
  | _ => rfl

/-- Where directories were made the path is taken, and there is no change but them. -/
theorem grows_of_ensureDirectories {after : FileTree} (h : exec (system.ensureDirectories p) tree = (.ok (), after)) :
    Grows tree after := by
  cases hp : p.untaken? with
  | none =>
    have hgrows := (ensureDirectories_makes hp).grows tree
    rwa [h] at hgrows
  | some e =>
    rw [exec_ensureDirectories_of_untaken? hp] at h
    cases (Prod.mk.inj h).1

/-- Nothing is made where there is a directory. -/
theorem exec_ensureDirectories_of_directory (h : tree.at? p = .ok .directory) :
    exec (system.ensureDirectories p) tree = (.ok (), tree) := by
  obtain ⟨place, hplace, hkind⟩ := at?_eq_ok.mp h
  have hmake : exec (system.makeDirectory p) tree = (.error (.refused .alreadyExists p.render), tree) := by
    show exec (makeDirectory p) tree = _
    rw [exec_makeDirectory, hplace]
    simp [hkind]
  have hthere : exec (system.isExistingDirectory p) tree = (.ok true, tree) := by
    show exec (tryCatch (isDirectory p) _) tree = _
    rw [exec_tryCatch, exec_isDirectory, h]
  rw [FileSystem.ensureDirectories, exec_tryCatch, hmake]
  dsimp only
  rw [FileSystem.forgiveExisting, exec_bind, hthere]
  rfl

/-! ## Writing at the end of a file -/

/-- Whether a text can be written at the end of the file of a path, with the directories above it made if they are
missing. -/
def Writable (tree : FileTree) (p : Path) : Prop := ∃ tree', exec (system.appendEnsuring p []) tree = (.ok (), tree')

theorem writable_iff : tree.Writable p ↔ (exec (system.appendEnsuring p []) tree).1.isOk = true := by
  unfold Writable
  rcases exec (system.appendEnsuring p []) tree with ⟨_ | _, after⟩
  · simp [Except.isOk, Except.toBool]
  · simp [Except.isOk, Except.toBool]

instance (tree : FileTree) (p : Path) : Decidable (tree.Writable p) := decidable_of_iff _ writable_iff.symm

/-- A tree, and one in which bytes were written at the end of the file of a path. -/
structure Extends (p : Path) (added : Utf8.Bytes) (tree tree' : FileTree) : Prop extends Keeps tree tree' where
  /-- The file goes on from what the path led to before. -/
  content : tree'.content? p = some ((tree.content? p).getD [] ++ added)
  /-- A path that led to a file goes on leading there. -/
  settled : ∀ place content, tree.place? p = .ok place → tree.fileAt? place = some content → tree'.place? p = .ok place
  others : ∀ q, tree'.place? p ≠ .ok q → tree'.fileAt? q = tree.fileAt? q
  /-- A path with its directory in the tree had led to all that there was at the place of the file. -/
  inPlace : tree.at? p.parent = .ok .directory →
    ∀ place, tree'.place? p = .ok place → tree.content? p = tree.fileAt? place

/-- Writing at the end of a file starts with the question if the file is there. -/
theorem exec_appendEnsuring (p : Path) (text : Text) (tree : FileTree) :
    exec (system.appendEnsuring p text) tree = match tree.exists? p with
      | .ok true => exec (append p text) tree
      | .ok false => exec (system.ensureDirectories p.parent >>= fun _ => write p text) tree
      | .error e => (.error e, tree) := by
  rw [FileSystem.appendEnsuring, exec_bind, exec_pathExists]
  rcases tree.exists? p with e | _ | _ <;> rfl

/-- Where a text can be written, the path leads to a file, or it leads nowhere and there are directories to be made,
after which it leads to the place of a file. -/
theorem Writable.cases (h : tree.Writable p) :
    (∃ place content, tree.place? p = .ok place ∧ tree.kindAt place = .file content ∧
      ∀ text, exec (system.appendEnsuring p text) tree = exec (append p text) tree) ∨
    (tree.content? p = none ∧ ∃ after place, exec (system.ensureDirectories p.parent) tree = (.ok (), after) ∧
      after.place? p = .ok place ∧ after.kindAt place ≠ .directory ∧
      ∀ text, exec (system.appendEnsuring p text) tree = exec (write p text) after) := by
  obtain ⟨tree', h⟩ := h
  have hnil : Utf8.encode [] = .ok [] := rfl
  have hway := fun text => exec_appendEnsuring p text tree
  cases hthere : tree.exists? p with
  | error e => simp [exec_appendEnsuring, hthere] at h
  | ok isThere =>
    simp only [hthere] at hway
    cases isThere with
    | true =>
      obtain ⟨kind, hat, hne⟩ := exists?_eq_true.mp hthere
      obtain ⟨place, hplace, hkind⟩ := at?_eq_ok.mp hat
      rw [hway, append, exec_writeAfter _ _ hnil, hplace] at h
      cases kind with
      | nothing => exact absurd rfl hne
      | file content => exact .inl ⟨place, content, hplace, hkind, hway⟩
      | directory => simp [hkind] at h
    | false =>
      rw [hway, exec_bind] at h
      rcases hmade : exec (system.ensureDirectories p.parent) tree with ⟨e | _, after⟩
      · simp [hmade] at h
      · simp only [hmade, write, exec_writeAfter _ _ hnil] at h
        cases hplace : after.place? p with
        | error e => simp [hplace] at h
        | ok place =>
          refine .inr ⟨content?_of_exists?_eq_false hthere, after, place, rfl, hplace, fun hkind => ?_, fun text => ?_⟩
          · simp [hplace, hkind] at h
          · rw [hway, exec_bind, hmade]

/-- A file that is put where a path leads is what the path leads to, and all else stays. -/
theorem extends_put {before : FileTree} {content : Utf8.Bytes} (hgrows : Grows before tree)
    (hplace : tree.place? p = .ok place) (hkind : tree.kindAt place ≠ .directory)
    (hcontent : content = (before.content? p).getD [] ++ added)
    (hinPlace : before.at? p.parent = .ok .directory → before.content? p = before.fileAt? place) :
    Extends p added before (tree.put place (.file content)) := by
  have hnew : (Entry.file content).children = [] := rfl
  have hput := kindAt_put hnew (reached_of_place? hplace) hkind
  have hkeeps : Keeps tree (tree.put place (.file content)) := keeps_put hnew (reached_of_place? hplace) hkind
  have hplace' : (tree.put place (.file content)).place? p = .ok place := place?_mono hkeeps hplace
  refine ⟨hgrows.toKeeps.trans hkeeps, ?_, fun q _ hq _ => ?_, fun q hq => ?_, fun hparent q hq => ?_⟩
  · rw [← hcontent, content?_of_place? hplace', fileAt?, hput, if_pos rfl]
    rfl
  · exact place?_mono (hgrows.toKeeps.trans hkeeps) hq
  · have hne : q ≠ place := fun h => hq (h ▸ hplace')
    rw [fileAt?, hput, if_neg hne]
    exact hgrows.file q
  · obtain rfl := Except.ok.inj (hplace'.symm.trans hq)
    exact hinPlace hparent

/-- A text is written at the end of the file of a path wherever that can be done. -/
theorem Writable.exec (h : tree.Writable p) (htext : Utf8.encode text = .ok bytes) :
    ∃ tree', FileTree.exec (system.appendEnsuring p text) tree = (.ok (), tree') ∧ Extends p bytes tree tree' := by
  rcases h.cases with ⟨place, content, hplace, hkind, hway⟩ | ⟨hnone, after, place, hmade, hplace, hkind, hway⟩
  · have hcontent : tree.content? p = some content := content?_eq_some.mpr (at?_eq_ok.mpr ⟨place, hplace, hkind⟩)
    refine ⟨tree.put place (.file (content ++ bytes)), ?_, ?_⟩
    · rw [hway, append, exec_writeAfter _ _ htext, hplace]
      simp [hkind]
    · exact extends_put (.refl tree) hplace (by simp [hkind]) (by rw [hcontent]; rfl) fun _ => content?_of_place? hplace
  · have hgrows : Grows tree after := grows_of_ensureDirectories hmade
    refine ⟨after.put place (.file bytes), ?_, ?_⟩
    · rw [hway, write, exec_writeAfter _ _ htext, hplace]
      cases hold : after.kindAt place with
      | directory => exact absurd hold hkind
      | _ => simp [hold]
    · refine extends_put hgrows hplace hkind (by rw [hnone]; rfl) fun hparent => ?_
      -- nothing had to be made, so the path led to the place before
      rw [exec_ensureDirectories_of_directory hparent] at hmade
      obtain ⟨-, rfl⟩ := Prod.mk.inj hmade
      exact content?_of_place? hplace

theorem writable_of_content? {content : Utf8.Bytes} (h : tree.content? p = some content) : tree.Writable p := by
  obtain ⟨place, hplace, hkind⟩ := at?_eq_ok.mp (content?_eq_some.mp h)
  refine ⟨tree.put place (.file (content ++ [])), ?_⟩
  have hnil : Utf8.encode [] = .ok [] := rfl
  rw [exec_appendEnsuring, exists?_eq_true.mpr ⟨_, content?_eq_some.mp h, by simp⟩]
  show FileTree.exec (writeAfter id p []) tree = _
  rw [exec_writeAfter id p hnil, hplace]
  simp [hkind]

theorem Extends.writable (h : Extends p added tree tree') : tree'.Writable p := writable_of_content? h.content

/-- Once bytes were written the path leads to the file, so what is written later stands behind them. -/
theorem Extends.trans (h : Extends p added tree tree') (h' : Extends p more tree' tree'') :
    Extends p (added ++ more) tree tree'' := by
  obtain ⟨place, hplace, hkind⟩ := at?_eq_ok.mp (content?_eq_some.mp h.content)
  have hplace' : tree''.place? p = .ok place := h'.settled place _ hplace (fileAt?_eq_some.mpr hkind)
  refine ⟨h.toKeeps.trans h'.toKeeps, ?_, fun q old hq hold => ?_, fun q hq => ?_, fun hparent q hq => ?_⟩
  · rw [h'.content, h.content, Option.getD_some, List.append_assoc]
  · obtain rfl : place = q := Except.ok.inj (hplace.symm.trans (h.settled q old hq hold))
    exact hplace'
  · rw [h'.others q hq, h.others q (by rwa [hplace, ← hplace'])]
  · exact h.inPlace hparent q (by rwa [hplace, ← hplace'])

/-! ## Failing to write -/

theorem isRefusal_of_writeAfter {kept : Utf8.Bytes → Utf8.Bytes} (hp : p.untaken? = none)
    (htext : Utf8.encode text = .ok bytes) {e : FileError} (h : (exec (writeAfter kept p text) tree).1 = .error e) :
    e.isRefusal = true := by
  rw [exec_writeAfter _ _ htext] at h
  cases hplace : tree.place? p with
  | error e' =>
    rw [hplace] at h
    exact Except.error.inj h ▸ isRefusal_of_place? hp hplace
  | ok place =>
    cases hkind : tree.kindAt place <;> simp [hplace, hkind] at h
    exact h ▸ rfl

theorem isRefusal_of_exists? {e : FileError} (h : tree.exists? p = .error e) : e.isRefusal = true := by
  unfold exists? at h
  split at h
  · cases h
  · split at h
    · cases h
    · exact Except.error.inj h ▸ rfl
  · cases h

/-- Why a text cannot be written at the end of a file, if not because the system refuses: it is not asked for the
directory, or it is asked for that one, which is there or can be made, and not for the file. -/
inductive Unasked (tree : FileTree) (p : Path) (e : FileError) : Prop
  | directory (h : p.parent.untaken? = some e)
  | file (after : FileTree) (hmade : exec (system.ensureDirectories p.parent) tree = (.ok (), after))
      (h : p.untaken? = some e)

/-- What is done at a path that is not taken: only the directories are made. -/
theorem exec_appendEnsuring_of_untaken? {e : FileError} (h : p.untaken? = some e) (text : Text) :
    exec (system.appendEnsuring p text) tree = match exec (system.ensureDirectories p.parent) tree with
      | (.ok _, after) => (.error e, after)
      | (.error e, after) => (.error e, after) := by
  rw [exec_appendEnsuring, exists?_of_untaken? h]
  dsimp only
  rw [exec_bind]
  rcases exec (system.ensureDirectories p.parent) tree with ⟨e' | _, after⟩
  · rfl
  · dsimp only
    rw [write, writeAfter, exec_bind, exec_find, place?_of_untaken? h]
    rfl

theorem Unasked.exec {e : FileError} (h : tree.Unasked p e) (text : Text) :
    (FileTree.exec (system.appendEnsuring p text) tree).1 = .error e := by
  cases h with
  | directory h =>
    cases hp : p.untaken? with
    | none => rw [Path.untaken?_parent hp] at h; cases h
    | some e' => rw [exec_appendEnsuring_of_untaken? hp, exec_ensureDirectories_of_untaken? h]
  | file after hmade h => rw [exec_appendEnsuring_of_untaken? h, hmade]

theorem Unasked.isRefusal {e : FileError} (h : tree.Unasked p e) : e.isRefusal = false := by
  cases h with
  | directory h => exact Path.isRefusal_of_untaken? h
  | file after hmade h => exact Path.isRefusal_of_untaken? h

/-- Writing at the end of a file fails because the system refuses, or because it is not asked. -/
theorem refusal_or_unasked (htext : Utf8.encode text = .ok bytes) {e : FileError}
    (h : (exec (system.appendEnsuring p text) tree).1 = .error e) : e.isRefusal = true ∨ tree.Unasked p e := by
  cases hp : p.untaken? with
  | some e' =>
    rw [exec_appendEnsuring_of_untaken? hp] at h
    cases hparent : p.parent.untaken? with
    | some e'' =>
      rw [exec_ensureDirectories_of_untaken? hparent] at h
      exact .inr (.directory (Except.error.inj h ▸ hparent))
    | none =>
      have hrefuses := (ensureDirectories_makes hparent).refuses tree
      rcases hmade : exec (system.ensureDirectories p.parent) tree with ⟨e'' | _, after⟩
      · rw [hmade] at h hrefuses
        exact .inl (hrefuses e h)
      · rw [hmade] at h
        exact .inr (.file after hmade (Except.error.inj h ▸ hp))
  | none =>
    left
    rw [exec_appendEnsuring] at h
    split at h
    · exact isRefusal_of_writeAfter hp htext h
    · have hrefuses := (ensureDirectories_makes (Path.untaken?_parent hp)).refuses tree
      rw [exec_bind] at h
      rcases hmade : exec (system.ensureDirectories p.parent) tree with ⟨e' | _, after⟩
      · rw [hmade] at h hrefuses
        exact hrefuses e h
      · rw [hmade] at h
        exact isRefusal_of_writeAfter hp htext h
    · next hthere => exact Except.error.inj h ▸ isRefusal_of_exists? hthere

end FileTree

end Registrar
