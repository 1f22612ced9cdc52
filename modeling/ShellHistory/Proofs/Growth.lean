import ShellHistory.Proofs.Logging
import ShellHistory.Proofs.PathNames
import ShellHistory.Proofs.Resolution

/-! Trees that grow. Making directories and opening files only puts something where nothing was, so
whatever a path leads to it still leads to, and so it does when a file is written over. Once a
directory is made it is found there, and making it once more changes nothing; where it could not be
made it cannot be made the next time either. -/

namespace ShellHistory.FileTree

variable {t u : FileTree} {aim : Aim} {links : Nat} {here cwd place : Place} {names : List String}
  {name path : String} {spot : Spot} {root : Root}

/-- More stands in a tree than before. What was there still is, and there is no new link. -/
structure Grows (t u : FileTree) : Prop where
  kept : ∀ {place n}, t.node? place = some n → u.node? place = some n
  links : ∀ place, u.link? place = t.link? place
  closed : u.closed = t.closed

theorem Grows.refl (t : FileTree) : Grows t t := ⟨id, fun _ => rfl, rfl⟩

theorem Grows.trans {v : FileTree} (h : Grows t u) (h' : Grows u v) : Grows t v :=
  ⟨fun hn => h'.kept (h.kept hn), fun place => (h'.links place).trans (h.links place),
    h'.closed.trans h.closed⟩

theorem link?_put_self (t : FileTree) (hne : place ≠ []) (n : FileNode) :
    (t.put place n).link? place = if place.dropLast ∈ t.closed then none else n.target? := by
  rw [link?, node?_put t hne]
  rfl

theorem link?_put_of_ne (t : FileTree) {other : Place} (ho : other ≠ place) (n : FileNode) :
    (t.put place n).link? other = t.link? other := by
  rw [link?, link?, node?_put_of_ne t ho]
  rfl

theorem grows_put {n : FileNode} (h : t.node? place = none) (hn : n.target? = none) :
    Grows t (t.put place n) := by
  have hne : place ≠ [] := by
    rintro rfl
    cases h
  refine ⟨fun {other m} hother => ?_, fun other => ?_, rfl⟩
  · have ho : other ≠ place := by
      rintro rfl
      cases h.symm.trans hother
    rw [node?_put_of_ne t ho, hother]
  · by_cases ho : other = place
    · subst ho
      rw [link?_put_self t hne, hn, link?, h]
      rfl
    · exact link?_put_of_ne t ho n

/-- What stands at a place, and what stands there when files may have been written over. -/
inductive Overwritten : FileNode → FileNode → Prop
  | same {n : FileNode} : Overwritten n n
  | file {content content' : ByteArray} {executable executable' : Bool} :
      Overwritten (.file content executable) (.file content' executable')

/-- Files of a tree may have been written over, and more may stand in it than before. -/
structure Rewrites (t u : FileTree) : Prop where
  standing : ∀ {place n}, t.node? place = some n → ∃ m, u.node? place = some m ∧ Overwritten n m
  links : ∀ place, u.link? place = t.link? place
  closed : u.closed = t.closed

theorem Grows.rewrites (h : Grows t u) : Rewrites t u :=
  ⟨fun hn => ⟨_, h.kept hn, .same⟩, h.links, h.closed⟩

theorem rewrites_put {content content' : ByteArray} {executable executable' : Bool}
    (h : t.node? place = some (.file content executable)) :
    Rewrites t (t.put place (.file content' executable')) ∧
      (t.put place (.file content' executable')).node? place =
        some (.file content' executable') := by
  have hne : place ≠ [] := by
    rintro rfl
    cases h
  refine ⟨⟨fun {other n} hother => ?_, fun other => ?_, rfl⟩, node?_put t hne _⟩
  · by_cases ho : other = place
    · subst ho
      cases h.symm.trans hother
      exact ⟨_, node?_put t hne _, .file⟩
    · exact ⟨n, by rw [node?_put_of_ne t ho, hother], .same⟩
  · by_cases ho : other = place
    · subst ho
      rw [link?_put_self t hne, link?, h]
      rfl
    · exact link?_put_of_ne t ho _

theorem Grows.reached (h : Grows t u) (hr : t.Reached place) : u.Reached place :=
  fun above hp => h.kept (hr above hp)

def settle (u : FileTree) : Spot → Spot
  | .taken place => .taken place
  | .free place => if (u.node? place).isSome then .taken place else .free place

theorem Rewrites.admits (hr : Rewrites t u) (h : t.admits here name = true) :
    u.admits here name = true := by
  rw [FileTree.admits, hr.closed]
  exact h

theorem Rewrites.lookedUp {rest : List String} (hr : Rewrites t u)
    (h : LookedUp t here aim name rest) : LookedUp u here aim name rest :=
  ⟨hr.admits h.admitted, h.moves, h.down, h.open?, h.short⟩

/-- A walk goes the same way where files were written over. -/
theorem Walks.rewrites (h : Walks t aim links here names spot) (hr : Rewrites t u) :
    Walks u aim links here names (u.settle spot) := by
  induction h with
  | done => exact .done
  | stay ha hs _ ih => exact .stay (hr.admits ha) hs ih
  | up ha _ ih => exact .up (hr.admits ha) ih
  | @free links here name hl hnode =>
    have hlink : u.link? (here ++ [name]) = none := by
      rw [hr.links, link?, if_neg hl.opened, hnode, Option.bind_none]
    have hlu := hr.lookedUp hl
    rw [settle]
    cases hu : u.node? (here ++ [name]) with
    | none => exact .free hlu hu
    | some n =>
      rw [link?_of_node? hu hlu.opened] at hlink
      cases n with
      | directory => exact .into hlu hu .done
      | file => exact .file hlu hu
      | link => cases hlink
  | into hl hnode _ ih =>
    obtain ⟨m, hm, hover⟩ := hr.standing hnode
    cases hover
    exact .into (hr.lookedUp hl) hm ih
  | file hl hnode =>
    obtain ⟨m, hm, hover⟩ := hr.standing hnode
    cases hover <;> exact .file (hr.lookedUp hl) hm
  | entry hl hnode haim =>
    obtain ⟨m, hm, hover⟩ := hr.standing hnode
    cases hover
    exact .entry (hr.lookedUp hl) hm haim
  | detour hl hnode hentry _ ih =>
    obtain ⟨m, hm, hover⟩ := hr.standing hnode
    cases hover
    exact .detour (hr.lookedUp hl) hm hentry ih

/-- A walk goes the same way in a tree that has grown. -/
theorem Walks.grows (h : Walks t aim links here names spot) (hg : Grows t u) :
    Walks u aim links here names (u.settle spot) := h.rewrites hg.rewrites

theorem Walks.node?_of_free (h : Walks t aim links here names (.free place)) :
    t.node? place = none := by
  generalize hspot : Spot.free place = spot at h
  induction h with
  | done | file | entry => cases hspot
  | stay _ _ _ ih | up _ _ ih | into _ _ _ ih | detour _ _ _ _ ih => exact ih hspot
  | free _ hnode =>
    cases hspot
    exact hnode

/-- Where a name is free something can be put, and then it stands there. -/
theorem grows_put_free (h : Walks t aim links here names (.free place)) {n : FileNode}
    (hn : n.target? = none) : Grows t (t.put place n) ∧ (t.put place n).node? place = some n := by
  have hnone := h.node?_of_free
  have hne : place ≠ [] := by
    rintro rfl
    cases hnone
  exact ⟨grows_put hnone hn, node?_put t hne n⟩

theorem find_grows (h : t.find cwd path aim = .ok spot) (hg : Grows t u) :
    u.find cwd path aim = .ok (u.settle spot) := by
  obtain ⟨hpath, hwalk⟩ := find_ok_iff.1 h
  exact find_ok_iff.2 ⟨hpath, hwalk.grows hg⟩

theorem stat_grows {n : FileNode} (h : t.stat cwd path = .ok (place, n)) (hg : Grows t u) :
    u.stat cwd path = .ok (place, n) := by
  obtain ⟨hf, hn⟩ := stat_ok_iff.1 h
  exact stat_ok_iff.2 ⟨find_grows hf hg, hg.kept hn⟩

theorem isDirectory?_of_find (h : t.find cwd path .target = .ok (.taken place))
    (hn : t.node? place = some .directory) : t.isDirectory? cwd path = .ok true := by
  rw [isDirectory?, stat_of_find h, hn]
  rfl

theorem isDirectory?_grows (h : t.isDirectory? cwd path = .ok true) (hg : Grows t u) :
    u.isDirectory? cwd path = .ok true := by
  obtain ⟨place, hf, hn, -⟩ := find_of_isDirectory? h
  exact isDirectory?_of_find (find_grows hf hg) (hg.kept hn)

theorem Walks.node?_of_slash (h : Walks t aim links here (names ++ [""]) (.taken place))
    (hr : t.Reached here) : t.node? place = some .directory := by
  obtain ⟨links', between, hb, -, hlast⟩ := h.split (List.cons_ne_nil _ _) hr
  have hstays : t.walk aim links' between [""] = .ok (.taken between) := by
    rw [FileTree.walk, if_neg (by simp [admits]), if_pos (by decide), FileTree.walk]
  cases hlast.walk.symm.trans hstays
  exact hb.node?

theorem Walks.opening (h : Walks t .target links here names spot) (hr : t.Reached here)
    (hspot : spot = .taken place) (hfile : t.node? place ≠ some .directory) :
    Walks t .opening links here names spot := by
  have hopens {here : Place} {name : String} {rest : List String}
      (hl : LookedUp t here .target name rest) (hrest : rest ≠ [""]) :
      LookedUp t here .opening name rest :=
    ⟨hl.admitted, hl.moves, hl.down, fun hslash => hrest hslash.2, hl.short⟩
  induction h with
  | done => exact .done
  | stay ha hs _ ih => exact .stay ha hs (ih hr hspot)
  | up ha _ ih => exact .up ha (ih hr.above hspot)
  | free => cases hspot
  | entry _ _ haim => cases haim
  | file hl hnode => exact .file (hopens hl nofun) hnode
  | @into links here name rest spot hl hnode h ih =>
    refine .into (hopens hl ?_) hnode (ih (hr.into hnode) hspot)
    rintro rfl
    have hslash : Walks t .target links (here ++ [name]) ([] ++ [""]) (.taken place) := hspot ▸ h
    exact hfile (hslash.node?_of_slash (hr.into hnode))
  | @detour links here name target rest spot hl hnode _ h ih =>
    refine .detour (hopens hl ?_) hnode nofun (ih (hr.start target) hspot)
    rintro rfl
    exact hfile (Walks.node?_of_slash (hspot ▸ h) (hr.start target))

theorem stat_of_opening {n : FileNode} (h : t.find cwd path .opening = .ok spot)
    (hr : Rewrites t u) (hn : u.node? spot.place = some n) :
    u.stat cwd path = .ok (spot.place, n) := by
  obtain ⟨hpath, hwalk⟩ := find_ok_iff.1 h
  have hseen := (hwalk.target nofun).rewrites hr
  refine stat_ok_iff.2 ⟨find_ok_iff.2 ⟨hpath, ?_⟩, hn⟩
  cases spot with
  | taken place => exact hseen
  | free place =>
    rw [Spot.place] at hn
    rw [settle, hn] at hseen
    exact hseen

theorem touch_ok (h : t.touch cwd path = .ok u) : Grows t u ∧
    ∃ place content executable, u.stat cwd path = .ok (place, .file content executable) := by
  unfold touch at h
  cases hf : t.find cwd path .opening with
  | error e =>
    rw [hf] at h
    cases h
  | ok spot =>
    rw [hf] at h
    cases spot with
    | free place =>
      cases h
      obtain ⟨hg, hnode⟩ := grows_put_free (find_ok_iff.1 hf).2 (n := .file .empty false) rfl
      exact ⟨hg, place, .empty, false, stat_of_opening hf hg.rewrites hnode⟩
    | taken place =>
      dsimp only [bind, Except.bind] at h
      cases hn : t.node? place with
      | none =>
        rw [hn] at h
        cases h
      | some n =>
        rw [hn] at h
        cases n with
        | directory | link => cases h
        | file content executable =>
          cases h
          exact ⟨.refl t, place, content, executable,
            stat_of_opening hf (Grows.refl t).rewrites hn⟩

/-- What was written is found there, and nothing else was written over. -/
theorem write_ok {content : ByteArray} (h : t.write cwd path content = .ok u) :
    ∃ place executable, u = t.put place (.file content executable) ∧
      u.stat cwd path = .ok (place, .file content executable) := by
  unfold write at h
  cases hf : t.find cwd path .opening with
  | error e =>
    rw [hf] at h
    cases h
  | ok spot =>
    rw [hf] at h
    cases spot with
    | free place =>
      cases h
      obtain ⟨hg, hnode⟩ := grows_put_free (find_ok_iff.1 hf).2 (n := .file content false) rfl
      exact ⟨place, false, rfl, stat_of_opening hf hg.rewrites hnode⟩
    | taken place =>
      dsimp only [bind, Except.bind] at h
      cases hn : t.node? place with
      | none =>
        rw [hn] at h
        cases h
      | some n =>
        rw [hn] at h
        cases n with
        | directory | link => cases h
        | file old executable =>
          cases h
          obtain ⟨hr, hnode⟩ := @rewrites_put t place old content executable executable hn
          exact ⟨place, executable, rfl, stat_of_opening hf hr hnode⟩

theorem touch_of_stat {content : ByteArray} {executable : Bool} (hcwd : t.Reached cwd)
    (h : t.stat cwd path = .ok (place, .file content executable)) : t.touch cwd path = .ok t := by
  obtain ⟨hf, hn⟩ := stat_ok_iff.1 h
  obtain ⟨hpath, hwalk⟩ := find_ok_iff.1 hf
  have hopen := hwalk.opening (hcwd.start path) rfl (by rw [hn]; nofun)
  rw [touch, find_ok_iff.2 ⟨hpath, hopen⟩]
  dsimp only [bind, Except.bind]
  rw [hn]
  rfl

theorem makeDirectory_ok (h : t.makeDirectory cwd path = .ok u) :
    Grows t u ∧ u.isDirectory? cwd path = .ok true := by
  unfold makeDirectory at h
  cases hf : t.find cwd path .entry with
  | error e =>
    rw [hf] at h
    cases h
  | ok spot =>
    obtain ⟨hpath, hwalk⟩ := find_ok_iff.1 hf
    rw [hf] at h
    cases spot with
    | taken place => cases h
    | free place =>
      cases h
      obtain ⟨hg, hnode⟩ := grows_put_free hwalk (n := .directory) rfl
      have htarget := (hwalk.target fun _ => ⟨place, rfl⟩).grows hg
      rw [settle, hnode] at htarget
      exact ⟨hg, isDirectory?_of_find (find_ok_iff.2 ⟨hpath, htarget⟩) hnode⟩

theorem makeDirectory_of_isDirectory? (h : t.isDirectory? cwd path = .ok true) :
    t.makeDirectory cwd path = .error .taken := by
  obtain ⟨place, hf, -, -⟩ := find_of_isDirectory? h
  obtain ⟨hpath, hwalk⟩ := find_ok_iff.1 hf
  obtain ⟨other, hentry⟩ := hwalk.entry_taken
  rw [makeDirectory, find_ok_iff.2 ⟨hpath, hentry⟩]
  rfl

theorem find_dot (hopen : cwd ∉ t.closed) : t.find cwd "." .target = .ok (.taken cwd) := by
  have hsteps : steps "." = ["."] := by decide
  exact find_ok_iff.2 ⟨⟨by decide, by decide, by decide⟩,
    hsteps ▸ .stay (admits_of_open hopen ".") (by decide) .done⟩

/-- What is followed from a directory is followed from an open one. -/
theorem Walks.open_of_cons {rest : List String} (h : Walks t aim links here (name :: rest) spot)
    (hname : name ≠ "") : here ∉ t.closed := by
  have hadmits : t.admits here name = true := by
    cases h with
    | stay ha => exact ha
    | up ha => exact ha
    | free hl => exact hl.admitted
    | into hl => exact hl.admitted
    | file hl => exact hl.admitted
    | entry hl => exact hl.admitted
    | detour hl => exact hl.admitted
  simpa [admits, hname] using hadmits

/-- What is looked up is looked up in a directory, the one above it. -/
theorem isDirectory?_above (hcwd : t.Reached cwd) (hnamed : Path.Named ⟨root, names ++ [name]⟩)
    (h : t.find cwd (Path.toText ⟨root, names ++ [name]⟩) aim = .ok spot) :
    t.isDirectory? cwd (Path.toText ⟨root, names⟩) = .ok true := by
  by_cases hp : root ≠ .none ∨ names ≠ []
  · have habove : Path.Named ⟨root, names⟩ := fun n hn => hnamed n (List.mem_append_left _ hn)
    obtain ⟨hpath, hwalk⟩ := find_ok_iff.1 h
    rw [steps_toText hnamed (.inr (by simp)), startOf_toText hnamed, ← @startOf_toText names _ _ habove]
      at hwalk
    have hstart : t.Reached (startOf (Path.toText ⟨root, names⟩) cwd) := hcwd.start _
    obtain ⟨_, between, hb, hfront, -⟩ := hwalk.split (List.cons_ne_nil _ _) hstart
    obtain ⟨more, hmore⟩ := Path.exists_toText_concat hp name
    have hfound : t.find cwd (Path.toText ⟨root, names⟩) .target = .ok (.taken between) := by
      rw [hmore] at hpath
      exact find_ok_iff.2
        ⟨hpath.of_append (toText_ne_empty habove), (steps_toText habove hp).symm ▸ hfront⟩
    exact isDirectory?_of_find hfound hb.node?
  · obtain ⟨rfl, rfl⟩ : root = .none ∧ names = [] := by simpa using hp
    have hwalk := (find_ok_iff.1 h).2
    rw [steps_toText hnamed (.inr (List.cons_ne_nil _ _)), startOf_toText hnamed, if_pos rfl] at hwalk
    have hopen := hwalk.open_of_cons (hnamed name List.mem_cons_self).1
    exact isDirectory?_of_find (find_dot hopen) hcwd.node?

section Directories

variable {reversed above : List String} {failure : FileError × String}

theorem isDirectory?_of_obstacle {e : FileError} (h : t.obstacle cwd path e = none) :
    t.isDirectory? cwd path = .ok true := by
  unfold obstacle at h
  split at h
  · cases h
  · cases h
  · next hd => exact hd
  · cases h

theorem makeDirectories_refused {e : FileError}
    (h : t.makeDirectory cwd (Path.toText ⟨root, reversed.reverse⟩) = .error e)
    (he : e ≠ .notFound) : makeDirectories cwd root reversed t =
      (t, t.obstacle cwd (Path.toText ⟨root, reversed.reverse⟩) e) := by
  rw [makeDirectories.eq_def]
  dsimp only
  rw [h]
  cases e <;> first | exact absurd rfl he | rfl

theorem makeDirectories_stuck (h : t.makeDirectory cwd (Path.toText ⟨root, []⟩) = .error .notFound) :
    makeDirectories cwd root [] t = (t, some (.notFound, Path.toText ⟨root, []⟩)) := by
  have h' : t.makeDirectory cwd (Path.toText ⟨root, [].reverse⟩) = .error .notFound := h
  rw [makeDirectories.eq_def]
  dsimp only
  rw [h']
  rfl

theorem makeDirectories_above
    (h : t.makeDirectory cwd (Path.toText ⟨root, (name :: above).reverse⟩) = .error .notFound) :
    makeDirectories cwd root (name :: above) t =
      match makeDirectories cwd root above t with
      | (u, some failure) => (u, some failure)
      | (u, none) =>
        match u.makeDirectory cwd (Path.toText ⟨root, (name :: above).reverse⟩) with
        | .ok v => (v, none)
        | .error .notFound => (u, some (.notFound, Path.toText ⟨root, (name :: above).reverse⟩))
        | .error e => (u, u.obstacle cwd (Path.toText ⟨root, (name :: above).reverse⟩) e) := by
  rw [makeDirectories.eq_def]
  dsimp only
  rw [h]
  rfl

theorem makeDirectories_of_isDirectory?
    (h : t.isDirectory? cwd (Path.toText ⟨root, reversed.reverse⟩) = .ok true) :
    makeDirectories cwd root reversed t = (t, none) := by
  have hfree : t.obstacle cwd (Path.toText ⟨root, reversed.reverse⟩) .taken = none := by
    unfold obstacle
    rw [h]
  rw [makeDirectories_refused (makeDirectory_of_isDirectory? h) (by decide), hfree]

/-- Making directories lets the tree grow, and if nothing is in the way the last of them is there. -/
theorem makeDirectories_made (cwd : Place) (root : Root) (reversed : List String) (t : FileTree) :
    Grows t (makeDirectories cwd root reversed t).1 ∧
      ((makeDirectories cwd root reversed t).2 = none →
        (makeDirectories cwd root reversed t).1.isDirectory? cwd
          (Path.toText ⟨root, reversed.reverse⟩) = .ok true) := by
  fun_induction makeDirectories cwd root reversed t with
  | case1 reversed t path u hm => exact ⟨(makeDirectory_ok hm).1, fun _ => (makeDirectory_ok hm).2⟩
  | case2 t name above u failure hx path hm ih =>
    rw [hx] at ih
    exact ⟨ih.1, fun h => by cases h⟩
  | case3 t name above u hx v path hm hm' ih =>
    rw [hx] at ih
    exact ⟨ih.1.trans (makeDirectory_ok hm').1, fun _ => (makeDirectory_ok hm').2⟩
  | case4 t name above u hx path hm hm' ih =>
    rw [hx] at ih
    exact ⟨ih.1, fun h => by cases h⟩
  | case5 t name above u hx e hn path accept hm hm' ih =>
    rw [hx] at ih
    exact ⟨ih.1, isDirectory?_of_obstacle⟩
  | case6 t path hm => exact ⟨.refl t, fun h => by cases h⟩
  | case7 reversed t path accept e hm => exact ⟨.refl t, isDirectory?_of_obstacle⟩

/-- Directories that could not be made cannot be made the next time. -/
theorem makeDirectories_again (hcwd : t.Reached cwd) (hnamed : Path.Named ⟨root, reversed.reverse⟩)
    (h : (makeDirectories cwd root reversed t).2 ≠ none) :
    ∃ failure, makeDirectories cwd root reversed (makeDirectories cwd root reversed t).1 =
      ((makeDirectories cwd root reversed t).1, some failure) := by
  fun_induction makeDirectories cwd root reversed t with
  | case1 | case3 => exact absurd rfl h
  | case2 t name above u failure hx path hm ih =>
    have hg := (makeDirectories_made cwd root above t).1
    have habove : Path.Named ⟨root, above.reverse⟩ := fun n hn =>
      hnamed n (by rw [List.reverse_cons]; exact List.mem_append_left _ hn)
    rw [hx] at ih hg
    obtain ⟨failure', hagain⟩ := ih hcwd habove (Option.some_ne_none failure)
    -- nothing can be looked up below what is no directory
    have hmissing : ∀ aim spot, u.find cwd path aim ≠ .ok spot := by
      intro aim spot hf
      have hthere : u.isDirectory? cwd (Path.toText ⟨root, above.reverse⟩) = .ok true :=
        isDirectory?_above (hg.reached hcwd) (by rwa [List.reverse_cons] at hnamed)
          (by rwa [← List.reverse_cons])
      rw [makeDirectories_of_isDirectory? hthere] at hagain
      cases hagain
    cases hm' : u.makeDirectory cwd path with
    | ok v =>
      unfold makeDirectory at hm'
      cases hf : u.find cwd path .entry with
      | error e =>
        rw [hf] at hm'
        cases hm'
      | ok spot => exact absurd hf (hmissing .entry spot)
    | error e =>
      by_cases he : e = .notFound
      · subst he
        rw [makeDirectories_above hm', hagain]
        exact ⟨failure', rfl⟩
      · rw [makeDirectories_refused hm' he]
        cases ho : u.obstacle cwd path e with
        | some failure => exact ⟨failure, rfl⟩
        | none =>
          obtain ⟨place, hf, -⟩ := find_of_isDirectory? (isDirectory?_of_obstacle ho)
          exact absurd hf (hmissing _ _)
  | case4 t name above u hx path hm hm' ih =>
    have hmade := (makeDirectories_made cwd root above t).2
    rw [hx] at hmade
    rw [makeDirectories_above hm', makeDirectories_of_isDirectory? (hmade rfl)]
    dsimp only
    rw [hm']
    exact ⟨_, rfl⟩
  | case5 t name above u hx e hn path accept hm hm' ih =>
    rw [makeDirectories_refused hm' hn]
    obtain ⟨failure, ho⟩ := Option.ne_none_iff_exists'.1 h
    exact ⟨failure, congrArg (Prod.mk u) ho⟩
  | case6 t path hm => exact ⟨_, makeDirectories_stuck hm⟩
  | case7 reversed t path accept e hm hcons hnil =>
    obtain ⟨failure, ho⟩ := Option.ne_none_iff_exists'.1 h
    have he : e ≠ .notFound := by
      rintro rfl
      cases reversed with
      | nil => exact hnil rfl rfl
      | cons name above => exact hcons name above rfl rfl
    rw [makeDirectories_refused hm he]
    exact ⟨failure, congrArg (Prod.mk t) ho⟩

end Directories

end ShellHistory.FileTree
