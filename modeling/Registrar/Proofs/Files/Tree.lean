import Mathlib.Data.List.Basic
import Registrar.Files.Tree
import Registrar.Proofs.Files.Name

/-!
# Places of a file tree

What there is at the places of a tree (`kindAt`), what putting a file or an empty directory at one of them changes
(`kindAt_put`), and to which place a path leads (`place?`). A path depends on the directories on its way alone, so it goes
on leading to its place in a tree that keeps them (`Keeps`, `place?_mono`). Seen from the root it leads to the same place
(`place?_of_absolute?`).
-/

namespace Registrar.FileTree

/-! ## What there is at a place -/

/-- What there is at a place, without what is in a directory. -/
inductive Kind where
  | nothing
  | file (content : Utf8.Bytes)
  | directory
deriving DecidableEq

/-- The kind of an entry. -/
def Kind.of : Option Entry → Kind
  | none => .nothing
  | some (.file content) => .file content
  | some (.directory _) => .directory

/-- What there is at a place of a tree. -/
def kindAt (tree : FileTree) (place : Place) : Kind := .of <| tree.entry? place

/-- The content of a file. -/
def Kind.content? : Kind → Option Utf8.Bytes
  | .file content => some content
  | _ => none

/-- The content of the file at a place of a tree. -/
def fileAt? (tree : FileTree) (place : Place) : Option Utf8.Bytes := (tree.kindAt place).content?

/-- Whether the names of a place lead through directories. -/
def Reached (tree : FileTree) (place : Place) : Prop :=
  ∀ above name below, place = above ++ name :: below → tree.kindAt above = .directory

namespace Entry

theorem lookup_filter_of_ne {name other : FileName} (h : other ≠ name) (children : List (FileName × Entry)) :
    (children.filter (·.1 != name)).lookup other = children.lookup other := by
  induction children with
  | nil => rfl
  | cons child children ih =>
    by_cases hname : child.1 = name
    · have hother : (other == child.1) = false := beq_false_of_ne (hname ▸ h)
      rw [List.filter_cons_of_neg (by simpa using hname), ih, List.lookup_cons, hother]
    · rw [List.filter_cons_of_pos (by simpa using hname), List.lookup_cons, List.lookup_cons, ih]

theorem child?_putChild_of_ne (e : Entry) {name other : FileName} (new : Entry) (h : other ≠ name) :
    (e.putChild name new).child? other = e.child? other := by
  have hother : (other == name) = false := beq_false_of_ne h
  show List.lookup other ((name, new) :: e.children.filter (·.1 != name)) = e.children.lookup other
  rw [List.lookup_cons, hother]
  exact lookup_filter_of_ne h e.children

theorem get?_append (e : Entry) (above below : Place) :
    e.get? (above ++ below) = (e.get? above).bind (·.get? below) := by
  induction above generalizing e with
  | nil => rfl
  | cons name names ih =>
    rw [List.cons_append, get?, get?, Option.bind_assoc]
    exact Option.bind_congr fun inner _ => ih inner

theorem get?_of_children_eq_nil {e : Entry} (h : e.children = []) {place : Place} (hne : place ≠ []) :
    e.get? place = none := by
  cases place with
  | nil => exact absurd rfl hne
  | cons name names => rw [get?, child?, h, List.lookup_nil, Option.bind_none]

/-- An entry without children in the place of another one that is no directory, or of none. -/
theorem kind_get?_of_children_eq_nil {new : Entry} (hnew : new.children = []) (old : Option Entry)
    (hold : Kind.of old ≠ .directory) (q : Place) :
    Kind.of (new.get? q) = if q = [] then Kind.of (some new) else Kind.of (old.bind (·.get? q)) := by
  by_cases hq : q = []
  · rw [if_pos hq, hq]
    rfl
  · rw [if_neg hq, get?_of_children_eq_nil hnew hq]
    rcases old with _ | ⟨content | children⟩
    · rfl
    · rw [Option.bind_some, get?_of_children_eq_nil rfl hq]
    · exact absurd rfl hold

/-- An entry without children changes what there is at its place and nothing else. -/
theorem kind_get?_put {new : Entry} (hnew : new.children = []) {place : Place} {e : Entry}
    (habove : ∀ above name below, place = above ++ name :: below → Kind.of (e.get? above) = .directory)
    (hat : Kind.of (e.get? place) ≠ .directory) (q : Place) :
    Kind.of ((put new place e).get? q) = if q = place then Kind.of (some new) else Kind.of (e.get? q) := by
  induction place generalizing e q with
  | nil => exact kind_get?_of_children_eq_nil hnew (some e) hat q
  | cons name names ih =>
    have hdirectory : Kind.of (some e) = .directory := habove [] name names rfl
    cases q with
    | nil =>
      rw [if_neg (List.cons_ne_nil name names).symm]
      exact hdirectory.symm
    | cons other rest =>
      rw [put, get?, get?]
      by_cases hother : other = name
      · subst hother
        rw [child?_putChild, Option.bind_some]
        simp only [List.cons.injEq, true_and]
        cases hinner : e.child? other with
        | some inner =>
          rw [Option.getD_some, Option.bind_some]
          refine ih (fun above name below hsplit => ?_) ?_ rest
          · simpa [get?, hinner] using habove (other :: above) name below (congrArg _ hsplit)
          · simpa [get?, hinner] using hat
        | none =>
          -- there is no directory under the name, so the place ends here
          have hnames : names = [] := by
            cases names with
            | nil => rfl
            | cons next names => simpa [get?, hinner, Kind.of] using habove [other] next names rfl
          subst hnames
          exact kind_get?_of_children_eq_nil hnew none (by simp [Kind.of]) rest
      · rw [child?_putChild_of_ne e _ hother, if_neg (fun h => hother (List.cons.inj h).1)]

/-- What is put twice at a place is there as it was put last. -/
theorem put_put (a b : Entry) (place : Place) (e : Entry) : put b place (put a place e) = put b place e := by
  induction place generalizing e with
  | nil => rfl
  | cons name names ih =>
    rw [put, put, child?_putChild, Option.getD_some, ih]
    simp [putChild, children, put, List.filter_filter]

end Entry

variable {tree tree' : FileTree} {place q : Place} {bytes : Utf8.Bytes}

theorem fileAt?_eq_some : tree.fileAt? place = some bytes ↔ tree.kindAt place = .file bytes := by
  unfold fileAt?
  cases tree.kindAt place <;> simp [Kind.content?]

theorem kindAt_put {new : Entry} (hnew : new.children = []) (hreached : tree.Reached place)
    (hat : tree.kindAt place ≠ .directory) (q : Place) :
    (tree.put place new).kindAt q = if q = place then Kind.of (some new) else tree.kindAt q :=
  Entry.kind_get?_put hnew hreached hat q

theorem put_put (tree : FileTree) (place : Place) (a b : Entry) : (tree.put place a).put place b = tree.put place b := by
  simp only [put, Entry.put_put]

theorem Reached.dropLast (h : tree.Reached place) : tree.Reached place.dropLast := by
  intro above name below hsplit
  cases hlast : place.getLast? with
  | none =>
    rw [List.getLast?_eq_none_iff.mp hlast] at hsplit
    simp at hsplit
  | some last =>
    have hplace : place = place.dropLast ++ [last] := (List.dropLast_append_getLast? last hlast).symm
    exact h above name (below ++ [last]) (by rw [hplace, hsplit]; simp)

theorem Reached.concat (h : tree.Reached place) (hdirectory : tree.kindAt place = .directory) (name : FileName) :
    tree.Reached (place ++ [name]) := by
  intro above next below hsplit
  rcases List.append_eq_append_iff.mp hsplit with ⟨more, habove, hnext⟩ | ⟨more, hplace, hnext⟩
  · -- the place ends with this name, so nothing else is above it
    cases more with
    | nil => rwa [habove, List.append_nil]
    | cons _ more => simp at hnext
  · cases more with
    | nil =>
      rw [List.append_nil] at hplace
      exact hplace ▸ hdirectory
    | cons head more =>
      obtain ⟨rfl, -⟩ := List.cons.inj hnext
      exact h above _ more hplace

/-! ## Where paths lead -/

/-- Follows names from a place. All but the last must lead to directories. -/
def walkFrom (tree : FileTree) (place : Place) : List FileName → Except Refusal Place
  | [] => .ok place
  | name :: names =>
    match tree.kindAt place with
    | .nothing => .error .notFound
    | .file _ => .error .notDirectory
    | .directory =>
      if name = here then tree.walkFrom place names
      else if name = above then tree.walkFrom place.dropLast names
      else if nameLimit < name.length then .error .nameTooLong
      else tree.walkFrom (place ++ [name]) names

/-- The place to which a path leads. -/
def place? (tree : FileTree) (p : Path) : Except FileError Place :=
  match tree.names? p with
  | .error error => .error error
  | .ok names => (tree.walkFrom [] names).mapError (.refused · p.render)

/-- A trail on which each name has what there is at its place. -/
def Trail.Follows (tree : FileTree) : Trail → Prop
  | [] => True
  | (name, entry) :: trail => entry = tree.entry? (Trail.place trail ++ [name]) ∧ Follows tree trail

theorem Trail.place_cons (name : FileName) (entry : Option Entry) (trail : Trail) :
    Trail.place ((name, entry) :: trail) = trail.place ++ [name] := by
  simp [Trail.place]

theorem Trail.place_tail (trail : Trail) : Trail.place trail.tail = trail.place.dropLast := by
  cases trail with
  | nil => rfl
  | cons step trail => rw [List.tail_cons, Trail.place_cons, List.dropLast_concat]

theorem Trail.Follows.tail {trail : Trail} (h : trail.Follows tree) : Trail.Follows tree trail.tail := by
  cases trail with
  | nil => trivial
  | cons step trail => exact h.2

theorem found_eq_entry? {trail : Trail} (h : trail.Follows tree) : tree.found trail = tree.entry? trail.place := by
  cases trail with
  | nil => rfl
  | cons step trail => rw [found, Trail.place_cons, h.1]

/-- Following names along a trail leads where following them from its place does. -/
theorem walk_eq_walkFrom {trail : Trail} (h : trail.Follows tree) (names : List FileName) :
    (tree.walk trail names).map Trail.place = tree.walkFrom trail.place names ∧
      ∀ trail', tree.walk trail names = .ok trail' → trail'.Follows tree := by
  induction names generalizing trail with
  | nil =>
    refine ⟨rfl, fun trail' hend => ?_⟩
    obtain rfl := Except.ok.inj hend
    exact h
  | cons name names ih =>
    have hfound := found_eq_entry? h
    rw [walk, walkFrom, kindAt, ← hfound]
    cases hentry : tree.found trail with
    | none => exact ⟨rfl, fun _ hend => by simp at hend⟩
    | some entry =>
      cases entry with
      | file content => exact ⟨rfl, fun _ hend => by simp at hend⟩
      | directory children =>
        simp only [Kind.of]
        by_cases hdot : name = here
        · rw [if_pos hdot, if_pos hdot]
          exact ih h
        · rw [if_neg hdot, if_neg hdot]
          by_cases hdots : name = above
          · rw [if_pos hdots, if_pos hdots, ← Trail.place_tail]
            exact ih h.tail
          · rw [if_neg hdots, if_neg hdots]
            by_cases hlong : nameLimit < name.length
            · rw [if_pos hlong, if_pos hlong]
              exact ⟨rfl, fun _ hend => by simp at hend⟩
            · rw [if_neg hlong, if_neg hlong, ← Trail.place_cons name (children.lookup name)]
              refine ih ⟨?_, h⟩
              have hroot : tree.root.get? trail.place = some (.directory children) := hfound.symm.trans hentry
              show children.lookup name = tree.root.get? (trail.place ++ [name])
              rw [Entry.get?_append, hroot]
              simp [Entry.get?, Entry.child?, Entry.children]

/-- What a path leads to: its place, and what there is. -/
theorem follow_eq_place? (tree : FileTree) (p : Path) :
    (tree.follow p).map (fun trail => (trail.place, tree.found trail)) =
      (tree.place? p).map fun place => (place, tree.entry? place) := by
  unfold follow place?
  cases tree.names? p with
  | error e => rfl
  | ok names =>
    dsimp only
    have hstart : Trail.Follows tree [] := trivial
    obtain ⟨hplace, hfollows⟩ := walk_eq_walkFrom hstart names
    rw [show tree.walkFrom [] names = (tree.walk [] names).map Trail.place from hplace.symm]
    cases hwalk : tree.walk [] names with
    | error refusal => rfl
    | ok trail => simp [Except.map, Except.mapError, found_eq_entry? (hfollows trail hwalk)]

/-- Where a name leads from a directory. -/
def step? (place : Place) (name : FileName) : Option Place :=
  if name = here then some place
  else if name = above then some place.dropLast
  else if nameLimit < name.length then none
  else some (place ++ [name])

theorem walkFrom_cons_eq_ok {name : FileName} {names : List FileName} :
    tree.walkFrom place (name :: names) = .ok q ↔
      tree.kindAt place = .directory ∧ ∃ next, step? place name = some next ∧ tree.walkFrom next names = .ok q := by
  rw [walkFrom, step?]
  cases tree.kindAt place with
  | nothing => simp
  | file content => simp
  | directory =>
    dsimp only
    split
    · simp
    · split
      · simp
      · split <;> simp

theorem Reached.step {name : FileName} {next : Place} (h : tree.Reached place)
    (hdirectory : tree.kindAt place = .directory) (hnext : step? place name = some next) : tree.Reached next := by
  unfold step? at hnext
  split at hnext
  · exact Option.some.inj hnext ▸ h
  · split at hnext
    · exact Option.some.inj hnext ▸ h.dropLast
    · split at hnext
      · cases hnext
      · exact Option.some.inj hnext ▸ h.concat hdirectory name

theorem reached_walkFrom {names : List FileName} (hreached : tree.Reached place)
    (h : tree.walkFrom place names = .ok q) : tree.Reached q := by
  induction names generalizing place with
  | nil => exact Except.ok.inj h ▸ hreached
  | cons name names ih =>
    obtain ⟨hdirectory, next, hnext, h⟩ := walkFrom_cons_eq_ok.mp h
    exact ih (hreached.step hdirectory hnext) h

/-- A tree and one with at least its directories, seen from the same current directory. -/
structure Keeps (tree tree' : FileTree) : Prop where
  current : tree'.current = tree.current
  removed : tree'.removed = tree.removed
  directory : ∀ q, tree.kindAt q = .directory → tree'.kindAt q = .directory

theorem Keeps.refl (tree : FileTree) : Keeps tree tree := ⟨rfl, rfl, fun _ h => h⟩

theorem Keeps.trans {tree'' : FileTree} (h : Keeps tree tree') (h' : Keeps tree' tree'') : Keeps tree tree'' where
  current := h'.current.trans h.current
  removed := h'.removed.trans h.removed
  directory := fun q hq => h'.directory q (h.directory q hq)

/-- What is put in the place of no directory leaves all of them. -/
theorem keeps_put {new : Entry} (hnew : new.children = []) (hreached : tree.Reached place)
    (hat : tree.kindAt place ≠ .directory) : Keeps tree (tree.put place new) where
  current := rfl
  removed := rfl
  directory := fun q hq => by
    have hne : q ≠ place := fun h => hat (h ▸ hq)
    rw [kindAt_put hnew hreached hat, if_neg hne, hq]

/-- Names lead to the same place if the directories on the way are there. -/
theorem walkFrom_mono (hkeeps : Keeps tree tree') {names : List FileName} (h : tree.walkFrom place names = .ok q) :
    tree'.walkFrom place names = .ok q := by
  induction names generalizing place with
  | nil => exact h
  | cons name names ih =>
    obtain ⟨hhere, next, hnext, h⟩ := walkFrom_cons_eq_ok.mp h
    exact walkFrom_cons_eq_ok.mpr ⟨hkeeps.directory place hhere, next, hnext, ih h⟩

variable {p : Path}

/-- A path leads to a place if its names do. -/
theorem place?_eq_ok :
    tree.place? p = .ok place ↔ ∃ names, tree.names? p = .ok names ∧ tree.walkFrom [] names = .ok place := by
  unfold place?
  cases tree.names? p with
  | error e => simp
  | ok names => cases hwalk : tree.walkFrom [] names <;> simp [Except.mapError, hwalk]

theorem reached_of_place? (h : tree.place? p = .ok place) : tree.Reached place := by
  obtain ⟨names, -, hwalk⟩ := place?_eq_ok.mp h
  exact reached_walkFrom (fun above name below hsplit => by simp at hsplit) hwalk

theorem fromRoot_congr (hcurrent : tree'.current = tree.current) (removed : Nat) (names : List FileName) :
    tree'.fromRoot removed names = tree.fromRoot removed names := by
  fun_induction fromRoot tree removed names with
  | case1 names => rw [fromRoot, hcurrent]
  | case2 removed => rw [fromRoot]
  | case3 removed names ih => rw [fromRoot, if_pos rfl, ih]
  | case4 removed names hhere ih => rw [fromRoot, if_neg hhere, if_pos rfl, ih]
  | case5 removed name names hhere habove => rw [fromRoot, if_neg hhere, if_neg habove]

/-- The names of a path from the root on depend on the current directory alone. -/
theorem names?_congr (hcurrent : tree'.current = tree.current) (hremoved : tree'.removed = tree.removed) (p : Path) :
    tree'.names? p = tree.names? p := by
  unfold names?
  rw [hremoved, fromRoot_congr hcurrent]

theorem place?_mono (hkeeps : Keeps tree tree') (h : tree.place? p = .ok place) : tree'.place? p = .ok place := by
  obtain ⟨names, hnames, hwalk⟩ := place?_eq_ok.mp h
  rw [← names?_congr hkeeps.current hkeeps.removed] at hnames
  exact place?_eq_ok.mpr ⟨names, hnames, walkFrom_mono hkeeps hwalk⟩

/-! ## The current directory -/

theorem currentPath?_eq_ok : tree.currentPath? = .ok p ↔
    tree.removed = 0 ∧ tree.kindAt tree.current = .directory ∧
      p = { anchor := .root, names := tree.current.map FileName.decode } := by
  unfold currentPath? kindAt
  rcases hremoved : tree.removed with _ | removed <;> rcases tree.entry? tree.current with _ | ⟨_ | _⟩ <;>
    simp [Kind.of, eq_comm]

/-- A path seen from the root. -/
def absolute? (tree : FileTree) (p : Path) : Except FileError Path :=
  if p.isAbsolute then .ok p else tree.currentPath?.map p.under

/-- A relative path gets the names of the current directory, if it is there. -/
theorem absolute?_eq_ok {q : Path} (h : tree.absolute? p = .ok q) :
    (p.isAbsolute = true ∧ q = p) ∨ (p.isAbsolute = false ∧ tree.removed = 0 ∧ tree.kindAt tree.current = .directory ∧
      q = { anchor := .root, names := tree.current.map FileName.decode ++ p.names }) := by
  unfold absolute? at h
  split at h
  · next habsolute => exact .inl ⟨habsolute, (Except.ok.inj h).symm⟩
  · next habsolute =>
    obtain ⟨directory, hcurrent, rfl⟩ := map_eq_ok.mp h
    obtain ⟨hremoved, hkind, rfl⟩ := currentPath?_eq_ok.mp hcurrent
    exact .inr ⟨by simpa using habsolute, hremoved, hkind, by rw [Path.under, if_neg habsolute]⟩

/-- Seen from the root, a path leads where it leads. -/
theorem place?_of_absolute? {q : Path} (h : tree.absolute? p = .ok q) (hplace : tree.place? q = .ok place) :
    tree.place? p = .ok place := by
  rcases absolute?_eq_ok h with ⟨-, rfl⟩ | ⟨hrelative, hremoved, -, rfl⟩
  · exact hplace
  · obtain ⟨names, hnames, hwalk⟩ := place?_eq_ok.mp hplace
    refine place?_eq_ok.mpr ⟨names, ?_, hwalk⟩
    have hroundtrip : (tree.current.map FileName.decode).map FileName.ofText = tree.current := by
      rw [List.map_map]
      exact (List.map_congr_left fun name _ => FileName.ofText_decode name).trans (List.map_id _)
    unfold names? at hnames
    split at hnames
    · cases hnames
    · next htaken =>
      have hp : p.untaken? = none := Path.untaken?_of_subset (List.subset_append_right _ _) htaken
      split at hnames
      · cases hnames
      · next hlong =>
        have hle := Path.length_ofText_render_le (tree.current.map FileName.decode) hrelative
        have habsolute : ¬ p.isAbsolute = true := by simp [hrelative]
        obtain rfl : _ = names := Except.ok.inj hnames
        rw [names?, hp]
        dsimp only
        rw [if_neg (by omega), if_neg habsolute, hremoved, fromRoot, List.map_append, hroundtrip]
        rfl

theorem name_of_absolute? {q : Path} (h : tree.absolute? p = .ok q) (hp : p.name ≠ []) : q.name = p.name := by
  rcases absolute?_eq_ok h with ⟨-, rfl⟩ | ⟨-, -, -, rfl⟩
  · rfl
  · cases hlast : p.names.getLast? with
    | none => simp [Path.name, hlast] at hp
    | some last => simp [Path.name, List.getLast?_append, hlast]

theorem absolute?_mono {q : Path} (hkeeps : Keeps tree tree') (h : tree.absolute? p = .ok q) :
    tree'.absolute? p = .ok q := by
  rcases absolute?_eq_ok h with ⟨habsolute, rfl⟩ | ⟨hrelative, hremoved, hkind, rfl⟩
  · rw [absolute?, if_pos habsolute]
  · have hcurrent := currentPath?_eq_ok.mpr
      ⟨hkeeps.removed.trans hremoved, hkeeps.current ▸ hkeeps.directory _ hkind, rfl⟩
    rw [absolute?, if_neg (by simp [hrelative]), hcurrent, hkeeps.current]
    simp [Except.map, Path.under, hrelative]

end Registrar.FileTree
