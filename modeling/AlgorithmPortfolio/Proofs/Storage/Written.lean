import AlgorithmPortfolio.Storage.Tree

/-!
# Reading what was written

- `Tree.Leads`, `Tree.follow_cons_eq_ok_iff`: a way that leads somewhere, name by name.
- `Tree.locate_put`: a way that leads somewhere still does after a change of a place that is no
  directory, since all places on the way are directories.
- `exists_of_write`: what a write does that does not fail.
- `read_of_write`, `read_of_writeWithDirectories`: after a write that did not fail, the path has
  the text.
-/

namespace AlgorithmPortfolio.Storage

namespace Tree

variable {tree : Tree} {target : List String} {node : Node}

/-! ## Ways -/

/-- One name leads from a place to the next one. -/
inductive Leads : List String → String → List String → Prop
  | up {name : String} {place : List String} : Leads (name :: place) ".." place
  | down {name : String} {place : List String} (hname : name ≠ "..")
      (hlength : name.utf8ByteSize ≤ nameLimit) : Leads place name (name :: place)

theorem follow_cons_eq_ok_iff {place rest found : List String} {name : String} :
    tree.follow place (name :: rest) = .ok found ↔
      tree.node? place = some .directory ∧
        ∃ next, Leads place name next ∧ tree.follow next rest = .ok found := by
  constructor
  · -- the cases are those of the walk: the node of the place, and then the name
    intro h
    unfold follow at h
    split at h
    · exact nomatch h
    · exact nomatch h
    · rename_i hplace
      refine ⟨hplace, ?_⟩
      split at h
      · rename_i hname
        subst hname
        match place, h with
        | _ :: up, h => exact ⟨up, .up, h⟩
      · rename_i hname
        split at h
        · exact nomatch h
        · rename_i hlength
          exact ⟨name :: place, .down hname (Nat.le_of_not_lt hlength), h⟩
  · rintro ⟨hplace, next, hleads, h⟩
    unfold follow
    rw [hplace]
    cases hleads with
    | up => exact h
    | down hname hlength => simpa only [if_neg hname, if_neg (Nat.not_lt.mpr hlength)] using h

/-! ## A changed place -/

theorem node?_put_self (h : target ≠ []) : (tree.put target node).node? target = some node := by
  cases target with
  | nil => exact absurd rfl h
  | cons name up => simp [put, node?, Dict.get?_insert]

theorem node?_put_of_directory {place : List String} (hplace : tree.node? place = some .directory)
    (htarget : tree.node? target ≠ some .directory) :
    (tree.put target node).node? place = some .directory := by
  cases place with
  | nil => rfl
  -- the root is a directory whatever is put
  | cons name up =>
    -- two places with the same key have the same node
    have hkey : key (name :: up) ≠ key target := by
      intro h
      apply htarget
      cases target with
      | nil => rfl
      | cons name' up' => simpa only [node?, h] using hplace
    simpa only [put, node?, Dict.get?_insert, if_neg hkey] using hplace

theorem follow_put (htarget : tree.node? target ≠ some .directory) {place names found : List String}
    (h : tree.follow place names = .ok found) :
    (tree.put target node).follow place names = .ok found := by
  induction names generalizing place with
  | nil => exact h
  | cons name rest ih =>
    obtain ⟨hplace, next, hleads, hrest⟩ := follow_cons_eq_ok_iff.mp h
    exact follow_cons_eq_ok_iff.mpr
      ⟨node?_put_of_directory hplace htarget, next, hleads, ih hrest⟩

theorem locate_eq_ok_iff {path : String} {found : List String} :
    tree.locate path = .ok found ↔
      '\x00' ∉ path.toList ∧ path ≠ "" ∧ path.utf8ByteSize ≤ pathLimit ∧
        ¬ (Path.isAbsolute path ∧ Path.names path ≠ []) ∧
        tree.follow [] (Path.names path) = .ok found := by
  -- each failure has its own condition, in the order in which they are found
  unfold locate
  by_cases hnul : '\x00' ∈ path.toList
  · simp [hnul]
  · by_cases hempty : path = ""
    · simp [hempty]
    · by_cases hlength : pathLimit < path.utf8ByteSize
      · simp [hnul, hempty, hlength, Nat.not_le.mpr hlength]
      · by_cases habsolute : Path.isAbsolute path ∧ Path.names path ≠ []
        · simp [hnul, hempty, hlength, habsolute]
        · simp [hnul, hempty, hlength, habsolute, Nat.not_lt.mp hlength]

theorem locate_put (htarget : tree.node? target ≠ some .directory) {path : String}
    {found : List String} (h : tree.locate path = .ok found) :
    (tree.put target node).locate path = .ok found := by
  obtain ⟨hnul, hempty, hlength, habsolute, hfollow⟩ := locate_eq_ok_iff.mp h
  exact locate_eq_ok_iff.mpr ⟨hnul, hempty, hlength, habsolute, follow_put htarget hfollow⟩

end Tree

/-! ## Writes -/

theorem run_bind {α β : Type} (x : Action α) (f : α → Action β) (tree : Tree) :
    (x >>= f).run tree =
      match x.run tree with
      | (.ok a, mid) => (f a).run mid
      | (.error fault, mid) => (.error fault, mid) := by
  simp only [bind, ExceptT.bind, ExceptT.run, ExceptT.mk, StateT.bind]
  rcases x tree with ⟨fault | a, mid⟩ <;> rfl

theorem run_place (path : String) (tree : Tree) :
    (place path).run tree = (tree.locate path, tree) := by
  have hrun : (place path).run tree =
      (MonadExcept.ofExcept (tree.locate path) : Action (List String)).run tree := rfl
  rw [hrun]
  cases tree.locate path <;> rfl

theorem run_getThe (tree : Tree) : (getThe Tree : Action Tree).run tree = (.ok tree, tree) := rfl

/-- A change behind two checks that did not fail. -/
theorem run_guarded {slash directory : Bool} {fault : Fault} {change : Tree → Tree}
    {tree after : Tree}
    (h : (do
      if slash then throw Fault.isADirectory
      if directory then throw fault
      modify change : Action Unit).run tree = (.ok (), after)) :
    directory = false ∧ after = change tree := by
  cases slash with
  | true => exact nomatch h
  | false =>
    cases directory with
    | true => exact nomatch h
    | false =>
      cases h
      exact ⟨rfl, rfl⟩

theorem exists_of_write {path text : String} {tree after : Tree}
    (h : (write path text).run tree = (.ok (), after)) :
    ∃ place, tree.locate path = .ok place ∧ tree.node? place ≠ some .directory ∧
      Path.mustBeDirectory path = false ∧ after = tree.put place (.file (some text)) := by
  rw [write, run_bind, run_place] at h
  cases hlocate : tree.locate path with
  | error fault =>
    rw [hlocate] at h
    exact nomatch h
  | ok place =>
    rw [hlocate] at h
    simp only [run_bind, run_getThe] at h
    refine ⟨place, rfl, ?_⟩
    cases hnode : tree.node? place with
    | none =>
      rw [hnode] at h
      exact ⟨nofun, run_guarded h⟩
    | some node =>
      rw [hnode] at h
      cases node with
      | file content => exact ⟨nofun, run_guarded h⟩
      | directory => exact nomatch h

theorem read_of_write {path text : String} {tree after : Tree}
    (h : (write path text).run tree = (.ok (), after)) : after.read path = .ok text := by
  obtain ⟨place, hlocate, hplace, hmust, rfl⟩ := exists_of_write h
  have hne : place ≠ [] := fun h => hplace (h ▸ rfl)
  simp [Tree.read, Tree.locate_put hplace hlocate, Tree.node?_put_self hne, hmust, bind,
    Except.bind]

theorem read_of_writeWithDirectories {path text : String} {tree after : Tree}
    (h : (writeWithDirectories path text).run tree = (.ok (), after)) :
    after.read path = .ok text := by
  rw [writeWithDirectories, run_bind] at h
  split at h
  · exact read_of_write h
  · exact nomatch h

end AlgorithmPortfolio.Storage
