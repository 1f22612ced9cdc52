import ShellHistory.Proofs.PathNames

/-! Where paths lead. To follow names is to go from place to place, and each link on the way is a
detour that comes back to the names behind it. A way that is found within the limit for links is also
found without a limit, because a link that stood in a circle would need more links than itself. -/

namespace ShellHistory

def Spot.place : Spot → Place
  | .taken place | .free place => place

namespace FileTree

variable {t : FileTree} {aim : Aim} {links : Nat} {here place : Place} {names rest : List String}
  {name : String} {spot : Spot}

theorem eq_nil_of_append_eq {α : Type} {names rest : List α} {last : α} (hrest : rest ≠ [])
    (h : names ++ rest = [last]) : names = [] ∧ rest = [last] := by
  cases names with
  | nil => exact ⟨rfl, h⟩
  | cons first names => exact absurd (List.append_eq_nil_iff.1 (List.cons.inj h).2).2 hrest

structure LookedUp (t : FileTree) (here : Place) (aim : Aim) (name : String) (rest : List String) :
    Prop where
  admitted : t.admits here name = true
  moves : ¬ stays name = true
  down : name ≠ ".."
  open? : ¬ (aim = .opening ∧ rest = [""])
  short : ¬ name.utf8ByteSize > maxName

/-- Where nothing is to be opened, it does not matter which names follow. -/
theorem LookedUp.unopened {aim' : Aim} {rest' : List String} (h : LookedUp t here aim name rest)
    (ha : aim' ≠ .opening) : LookedUp t here aim' name rest' :=
  ⟨h.admitted, h.moves, h.down, fun hopen => ha hopen.1, h.short⟩

/-- A name that is not empty is looked up in an open directory only. -/
theorem LookedUp.opened (h : LookedUp t here aim name rest) : (here ++ [name]).dropLast ∉ t.closed := by
  rw [List.dropLast_concat]
  have hadmitted := h.admitted
  rw [admits, Bool.or_eq_true, decide_eq_true_eq, decide_eq_true_eq] at hadmitted
  rcases hadmitted with rfl | hopen
  · exact absurd rfl h.moves
  · exact hopen

/-- All the ways in which names are followed to a spot. -/
inductive Walks (t : FileTree) (aim : Aim) : Nat → Place → List String → Spot → Prop
  | done {links : Nat} {here : Place} : Walks t aim links here [] (.taken here)
  | stay {links : Nat} {here : Place} {name : String} {rest : List String} {spot : Spot} :
      t.admits here name = true → stays name = true → Walks t aim links here rest spot →
      Walks t aim links here (name :: rest) spot
  | up {links : Nat} {here : Place} {rest : List String} {spot : Spot} :
      t.admits here ".." = true → Walks t aim links here.dropLast rest spot →
      Walks t aim links here (".." :: rest) spot
  | free {links : Nat} {here : Place} {name : String} : LookedUp t here aim name [] →
      t.node? (here ++ [name]) = none → Walks t aim links here [name] (.free (here ++ [name]))
  | into {links : Nat} {here : Place} {name : String} {rest : List String} {spot : Spot} :
      LookedUp t here aim name rest → t.node? (here ++ [name]) = some .directory →
      Walks t aim links (here ++ [name]) rest spot → Walks t aim links here (name :: rest) spot
  | file {links : Nat} {here : Place} {name : String} {content : ByteArray} {executable : Bool} :
      LookedUp t here aim name [] → t.node? (here ++ [name]) = some (.file content executable) →
      Walks t aim links here [name] (.taken (here ++ [name]))
  | entry {links : Nat} {here : Place} {name target : String} : LookedUp t here aim name [] →
      t.node? (here ++ [name]) = some (.link target) → aim = .entry →
      Walks t aim links here [name] (.taken (here ++ [name]))
  | detour {links : Nat} {here : Place} {name target : String} {rest : List String} {spot : Spot} :
      LookedUp t here aim name rest → t.node? (here ++ [name]) = some (.link target) →
      ¬ (rest = [] ∧ aim = .entry) →
      Walks t aim links (startOf target here) (steps target ++ rest) spot →
      Walks t aim (links + 1) here (name :: rest) spot

theorem walk_of_lookedUp (h : LookedUp t here aim name rest) : t.walk aim links here (name :: rest) =
    match t.node? (here ++ [name]) with
    | none => if rest = [] then .ok (.free (here ++ [name])) else .error .notFound
    | some .directory => walk t aim links (here ++ [name]) rest
    | some (.file _ _) => if rest = [] then .ok (.taken (here ++ [name])) else .error .notDirectory
    | some (.link target) =>
      if rest = [] ∧ aim = .entry then .ok (.taken (here ++ [name]))
      else
        match links with
        | 0 => .error .tooManyLinks
        | links + 1 => walk t aim links (startOf target here) (steps target ++ rest) := by
  rw [walk, if_neg (by rw [h.admitted]; decide)]
  exact (if_neg h.moves).trans ((if_neg h.down).trans ((if_neg h.open?).trans (if_neg h.short)))

theorem walks_of_walk (h : t.walk aim links here names = .ok spot) :
    Walks t aim links here names spot := by
  have hadmits {here : Place} {name : String} (ha : ¬ (!t.admits here name) = true) :
      t.admits here name = true := by simpa using ha
  induction links, here, names using walk.induct t aim with
  | case1 links here =>
    rw [walk] at h
    cases h
    exact .done
  | case2 links here name rest ha =>
    rw [walk, if_pos ha] at h
    cases h
  | case3 links here name rest ha hs ih =>
    rw [walk, if_neg ha, if_pos hs] at h
    exact .stay (hadmits ha) hs (ih h)
  | case4 links here rest ha hs ih =>
    rw [walk, if_neg ha, if_neg hs, if_pos rfl] at h
    exact .up (hadmits ha) (ih h)
  | case5 links here name rest ha hs hn ho =>
    rw [walk, if_neg ha, if_neg hs, if_neg hn, if_pos ho] at h
    cases h
  | case6 links here name rest ha hs hn ho hlong =>
    rw [walk, if_neg ha, if_neg hs, if_neg hn, if_neg ho, if_pos hlong] at h
    cases h
  | case7 links here name ha hs hn hlong place hnode ho =>
    have hl : LookedUp t here aim name [] := ⟨hadmits ha, hs, hn, ho, hlong⟩
    rw [walk_of_lookedUp hl, hnode] at h
    cases h
    exact .free hl hnode
  | case8 links here name rest ha hs hn ho hlong place hnode hrest =>
    rw [walk_of_lookedUp ⟨hadmits ha, hs, hn, ho, hlong⟩, hnode] at h
    dsimp only at h
    rw [if_neg hrest] at h
    cases h
  | case9 links here name rest ha hs hn ho hlong place hnode ih =>
    have hl : LookedUp t here aim name rest := ⟨hadmits ha, hs, hn, ho, hlong⟩
    rw [walk_of_lookedUp hl, hnode] at h
    exact .into hl hnode (ih h)
  | case10 links here name ha hs hn hlong place content executable hnode ho =>
    have hl : LookedUp t here aim name [] := ⟨hadmits ha, hs, hn, ho, hlong⟩
    rw [walk_of_lookedUp hl, hnode] at h
    cases h
    exact .file hl hnode
  | case11 links here name rest ha hs hn ho hlong place content executable hnode hrest =>
    rw [walk_of_lookedUp ⟨hadmits ha, hs, hn, ho, hlong⟩, hnode] at h
    dsimp only at h
    rw [if_neg hrest] at h
    cases h
  | case12 links here name rest ha hs hn ho hlong place target hnode hentry =>
    have hl : LookedUp t here aim name rest := ⟨hadmits ha, hs, hn, ho, hlong⟩
    rw [walk_of_lookedUp hl, hnode] at h
    dsimp only at h
    rw [if_pos hentry] at h
    cases h
    obtain ⟨rfl, haim⟩ := hentry
    exact .entry hl hnode haim
  | case13 here name rest ha hs hn ho hlong place target hnode hentry =>
    rw [walk_of_lookedUp ⟨hadmits ha, hs, hn, ho, hlong⟩, hnode] at h
    dsimp only at h
    rw [if_neg hentry] at h
    cases h
  | case14 here name rest ha hs hn ho hlong place target hnode hentry links ih =>
    have hl : LookedUp t here aim name rest := ⟨hadmits ha, hs, hn, ho, hlong⟩
    rw [walk_of_lookedUp hl, hnode] at h
    dsimp only at h
    rw [if_neg hentry] at h
    exact .detour hl hnode hentry (ih h)

theorem Walks.walk (h : Walks t aim links here names spot) :
    t.walk aim links here names = .ok spot := by
  induction h with
  | done => rw [FileTree.walk]
  | stay ha hs _ ih => rw [FileTree.walk, if_neg (by rw [ha]; decide), if_pos hs, ih]
  | up ha _ ih =>
    rw [FileTree.walk, if_neg (by rw [ha]; decide), if_neg (by decide), if_pos rfl, ih]
  | free hl hnode | file hl hnode =>
    rw [walk_of_lookedUp hl, hnode]
    rfl
  | into hl hnode _ ih =>
    rw [walk_of_lookedUp hl, hnode]
    exact ih
  | entry hl hnode haim =>
    rw [walk_of_lookedUp hl, hnode]
    exact if_pos ⟨rfl, haim⟩
  | detour hl hnode hentry _ ih =>
    rw [walk_of_lookedUp hl, hnode]
    dsimp only
    rw [if_neg hentry, ih]

/-- A place that is reached by directories only. -/
def Reached (t : FileTree) (place : Place) : Prop :=
  ∀ above, above <+: place → t.node? above = some .directory

theorem reached_root : t.Reached [] := by
  intro above h
  obtain rfl := List.prefix_nil.1 h
  rfl

theorem Reached.node? (h : t.Reached place) : t.node? place = some .directory :=
  h place List.prefix_rfl

theorem Reached.above (h : t.Reached place) : t.Reached place.dropLast :=
  fun above hp => h above (hp.trans (List.dropLast_prefix place))

theorem Reached.into (h : t.Reached here) (hnode : t.node? (here ++ [name]) = some .directory) :
    t.Reached (here ++ [name]) := by
  intro above hp
  rcases List.prefix_concat_iff.1 hp with rfl | hp
  · exact hnode
  · exact h above hp

theorem Reached.start (h : t.Reached here) (target : String) : t.Reached (startOf target here) := by
  unfold startOf
  split
  · exact reached_root
  · exact h

/-- The names in front of others lead to a directory, where those are looked up. -/
theorem Walks.split (h : Walks t aim links here (names ++ rest) spot) (hrest : rest ≠ [])
    (hr : t.Reached here) :
    ∃ links' between, t.Reached between ∧ Walks t .target links here names (.taken between) ∧
      Walks t aim links' between rest spot := by
  generalize hall : names ++ rest = all at h
  induction h generalizing names with
  | done => exact absurd (List.append_eq_nil_iff.1 hall).2 hrest
  | @stay links here first more spot ha hs h ih =>
    cases names with
    | nil =>
      cases hall
      exact ⟨links, here, hr, .done, .stay ha hs h⟩
    | cons first names =>
      obtain ⟨rfl, hmore⟩ := List.cons.inj hall
      obtain ⟨links', between, hb, hnames, hlast⟩ := ih hr hmore
      exact ⟨links', between, hb, .stay ha hs hnames, hlast⟩
  | @up links here more spot ha h ih =>
    cases names with
    | nil =>
      cases hall
      exact ⟨links, here, hr, .done, .up ha h⟩
    | cons first names =>
      obtain ⟨rfl, hmore⟩ := List.cons.inj hall
      obtain ⟨links', between, hb, hnames, hlast⟩ := ih hr.above hmore
      exact ⟨links', between, hb, .up ha hnames, hlast⟩
  | @into links here first more spot hl hnode h ih =>
    cases names with
    | nil =>
      cases hall
      exact ⟨links, here, hr, .done, .into hl hnode h⟩
    | cons first names =>
      obtain ⟨rfl, hmore⟩ := List.cons.inj hall
      obtain ⟨links', between, hb, hnames, hlast⟩ := ih (hr.into hnode) hmore
      exact ⟨links', between, hb, .into (hl.unopened nofun) hnode hnames, hlast⟩
  | @detour links here first target more spot hl hnode hentry h ih =>
    cases names with
    | nil =>
      cases hall
      exact ⟨links + 1, here, hr, .done, .detour hl hnode hentry h⟩
    | cons first names =>
      obtain ⟨rfl, rfl⟩ := List.cons.inj hall
      obtain ⟨links', between, hb, hnames, hlast⟩ := ih (hr.start target) (List.append_assoc _ _ _)
      exact ⟨links', between, hb,
        .detour (hl.unopened nofun) hnode (fun hc => nomatch hc.2) hnames, hlast⟩
  -- where the walk ends there is one name, and it is not in front
  | @free links here last hl hnode =>
    obtain ⟨rfl, rfl⟩ := eq_nil_of_append_eq hrest hall
    exact ⟨links, here, hr, .done, .free hl hnode⟩
  | @file links here last content executable hl hnode =>
    obtain ⟨rfl, rfl⟩ := eq_nil_of_append_eq hrest hall
    exact ⟨links, here, hr, .done, .file hl hnode⟩
  | @entry links here last target hl hnode haim =>
    obtain ⟨rfl, rfl⟩ := eq_nil_of_append_eq hrest hall
    exact ⟨links, here, hr, .done, .entry hl hnode haim⟩

/-- Where a walk through reached directories ends: at one of them, or right below one. -/
inductive Ends (t : FileTree) : Spot → Prop
  | directory {place : Place} : t.Reached place → Ends t (.taken place)
  | below {above : Place} {name : String} {n : FileNode} : t.Reached above →
      t.node? (above ++ [name]) = some n → n ≠ .directory → Ends t (.taken (above ++ [name]))
  | free {above : Place} {name : String} : t.Reached above → t.node? (above ++ [name]) = none →
      Ends t (.free (above ++ [name]))

theorem Walks.ends (h : Walks t aim links here names spot) (hr : t.Reached here) : t.Ends spot := by
  induction h with
  | done => exact .directory hr
  | stay _ _ _ ih => exact ih hr
  | up _ _ ih => exact ih hr.above
  | free _ hnode => exact .free hr hnode
  | into _ hnode _ ih => exact ih (hr.into hnode)
  | file _ hnode => exact .below hr hnode nofun
  | entry _ hnode => exact .below hr hnode nofun
  | detour _ _ _ _ ih => exact ih (hr.start _)

theorem Walks.reached (h : Walks t aim links here names (.taken place)) (hr : t.Reached here)
    (hnode : t.node? place = some .directory) : t.Reached place := by
  cases h.ends hr with
  | directory h => exact h
  | below _ hnode' hne =>
    cases hnode.symm.trans hnode'
    exact absurd rfl hne

theorem link?_of_node? {n : FileNode} (h : t.node? place = some n)
    (hopen : place.dropLast ∉ t.closed) : t.link? place = n.target? := by
  rw [link?, if_neg hopen, h, Option.bind_some]

theorem link?_of_directory (h : t.node? place = some .directory) : t.link? place = none := by
  rw [link?, h]
  exact ite_self none

theorem proper_startOf (h : Proper here) (target : String) : Proper (startOf target here) := by
  unfold startOf
  split
  · exact nofun
  · exact h

theorem proper_concat (h : Proper here) {rest : List String} (hl : LookedUp t here aim name rest)
    (hslash : '/' ∉ name.toList) : Proper (here ++ [name]) := by
  intro n hn
  rcases List.mem_append.1 hn with hn | hn
  · exact h n hn
  · obtain rfl := List.mem_singleton.1 hn
    have hmoves := hl.moves
    simp only [stays, Bool.or_eq_true, decide_eq_true_eq, not_or] at hmoves
    exact ⟨⟨hmoves.2, hslash, hmoves.1⟩, hl.down⟩

theorem Walks.proper (h : Walks t aim links here names spot) (hp : Proper here)
    (hslash : ∀ name ∈ names, '/' ∉ name.toList) : Proper spot.place := by
  induction h with
  | done => exact hp
  | stay _ _ _ ih => exact ih hp fun n hn => hslash n (List.mem_cons_of_mem _ hn)
  | up _ _ ih =>
    exact ih (fun n hn => hp n ((List.dropLast_sublist _).subset hn)) fun n hn =>
      hslash n (List.mem_cons_of_mem _ hn)
  | free hl | file hl | entry hl => exact proper_concat hp hl (hslash _ List.mem_cons_self)
  | into hl _ _ ih =>
    exact ih (proper_concat hp hl (hslash _ List.mem_cons_self)) fun n hn =>
      hslash n (List.mem_cons_of_mem _ hn)
  | detour hl _ _ _ ih =>
    refine ih (proper_startOf hp _) fun n hn => ?_
    rcases List.mem_append.1 hn with hn | hn
    · exact unslashed_of_mem_steps hn
    · exact hslash n (List.mem_cons_of_mem _ hn)

/-- A directory by its own names, with no link among them. -/
structure Resolved (t : FileTree) (place : Place) : Prop where
  reached : t.Reached place
  proper : Proper place

/-- Nothing on the way down turns it aside: there is no link and no `..`. -/
structure Straight (t : FileTree) (here : Place) (names : List String) : Prop where
  down : ∀ name ∈ names, ¬ stays name = true ∧ name ≠ ".."
  unlinked : ∀ place, place <+: here ++ names → t.link? place = none

theorem straight_of_proper (hp : Proper names)
    (h : ∀ place, place <+: here ++ names → t.link? place = none) : t.Straight here names := by
  exact ⟨fun name hn => ⟨not_stays (hp name hn).1, (hp name hn).2⟩, h⟩

theorem Straight.tail (h : t.Straight here (name :: rest)) : t.Straight (here ++ [name]) rest :=
  ⟨fun n hn => h.down n (List.mem_cons_of_mem name hn), fun place hp =>
    h.unlinked place (by simpa using hp)⟩

theorem Walks.straight (h : Walks t aim links here names spot) (hs : t.Straight here names) :
    spot.place = here ++ names := by
  have hfirst {here : Place} {name : String} {rest : List String}
      (hs : t.Straight here (name :: rest)) : t.link? (here ++ [name]) = none :=
    hs.unlinked _ ⟨rest, by simp⟩
  induction h with
  | done => simp [Spot.place]
  | stay _ hstays => exact absurd hstays (hs.down _ List.mem_cons_self).1
  | up => exact absurd rfl (hs.down _ List.mem_cons_self).2
  | free | file => rfl
  | into _ _ _ ih => rw [ih hs.tail, List.append_assoc, List.singleton_append]
  | entry hl hnode | detour hl hnode =>
    have hnone := hfirst hs
    rw [link?_of_node? hnode hl.opened] at hnone
    cases hnone

/-- What a walk leads to is there to look at, except for a link that was not followed. -/
theorem Walks.target (h : Walks t aim links here names spot)
    (ha : aim = .entry → ∃ place, spot = .free place) : Walks t .target links here names spot := by
  induction h with
  | done => exact .done
  | stay hadmits hs _ ih => exact .stay hadmits hs (ih ha)
  | up hadmits _ ih => exact .up hadmits (ih ha)
  | free hl hnode => exact .free (hl.unopened nofun) hnode
  | into hl hnode _ ih => exact .into (hl.unopened nofun) hnode (ih ha)
  | file hl hnode => exact .file (hl.unopened nofun) hnode
  | entry _ _ haim =>
    obtain ⟨place, hfree⟩ := ha haim
    cases hfree
  | detour hl hnode _ _ ih =>
    exact .detour (hl.unopened nofun) hnode (fun hc => nomatch hc.2) (ih ha)

/-- What leads somewhere is there itself, if only as a link. -/
theorem Walks.entry_taken (h : Walks t .target links here names (.taken place)) :
    ∃ other, Walks t .entry links here names (.taken other) := by
  generalize hspot : Spot.taken place = spot at h
  induction h with
  | done => exact ⟨_, .done⟩
  | stay ha hs _ ih =>
    obtain ⟨other, h⟩ := ih hspot
    exact ⟨other, .stay ha hs h⟩
  | up ha _ ih =>
    obtain ⟨other, h⟩ := ih hspot
    exact ⟨other, .up ha h⟩
  | free => cases hspot
  | into hl hnode _ ih =>
    obtain ⟨other, h⟩ := ih hspot
    exact ⟨other, .into (hl.unopened nofun) hnode h⟩
  | file hl hnode => exact ⟨_, .file (hl.unopened nofun) hnode⟩
  | entry _ _ haim => cases haim
  | @detour _ _ _ _ rest _ hl hnode _ _ ih =>
    have hlook : LookedUp t _ .entry _ rest := hl.unopened nofun
    by_cases hrest : rest = []
    · subst hrest
      exact ⟨_, .entry hlook hnode rfl⟩
    · obtain ⟨other, h⟩ := ih hspot
      exact ⟨other, .detour hlook hnode (fun hc => hrest hc.1) h⟩

/-- The names lead from one place to another, over so many links. There is no limit for these, and
what is no link may be missing. -/
inductive Leads (t : FileTree) : Place → List String → Nat → Place → Prop
  | done {here : Place} : Leads t here [] 0 here
  | stay {here place : Place} {name : String} {rest : List String} {n : Nat} :
      stays name = true → Leads t here rest n place → Leads t here (name :: rest) n place
  | up {here place : Place} {rest : List String} {n : Nat} :
      Leads t here.dropLast rest n place → Leads t here (".." :: rest) n place
  | into {here place : Place} {name : String} {rest : List String} {n : Nat} :
      ¬ stays name = true → name ≠ ".." → t.link? (here ++ [name]) = none →
      Leads t (here ++ [name]) rest n place → Leads t here (name :: rest) n place
  | detour {here between place : Place} {name target : String} {rest : List String} {m n : Nat} :
      ¬ stays name = true → name ≠ ".." → t.link? (here ++ [name]) = some target →
      Leads t (startOf target here) (steps target) m between → Leads t between rest n place →
      Leads t here (name :: rest) (m + n + 1) place

theorem Leads.unique {m n : Nat} {other : Place} (h : t.Leads here names m place)
    (h' : t.Leads here names n other) : m = n ∧ place = other := by
  induction h generalizing n other with
  | done =>
    cases h'
    exact ⟨rfl, rfl⟩
  | stay hs _ ih =>
    cases h' with
    | stay _ h' => exact ih h'
    | up => exact absurd hs (by decide)
    | into hs' => exact absurd hs hs'
    | detour hs' => exact absurd hs hs'
  | up _ ih =>
    cases h' with
    | stay hs => exact absurd hs (by decide)
    | up h' => exact ih h'
    | into _ hn => exact absurd rfl hn
    | detour _ hn => exact absurd rfl hn
  | into hs hn hlink _ ih =>
    cases h' with
    | stay hs' => exact absurd hs' hs
    | up => exact absurd rfl hn
    | into _ _ _ h' => exact ih h'
    | detour _ _ hlink' => cases hlink.symm.trans hlink'
  | detour hs hn hlink _ _ ihm ihn =>
    cases h' with
    | stay hs' => exact absurd hs' hs
    | up => exact absurd rfl hn
    | into _ _ hlink' => cases hlink.symm.trans hlink'
    | detour _ _ hlink' hm hn' =>
      cases hlink.symm.trans hlink'
      obtain ⟨rfl, rfl⟩ := ihm hm
      obtain ⟨rfl, rfl⟩ := ihn hn'
      exact ⟨rfl, rfl⟩

theorem Leads.split {n : Nat} (h : t.Leads here (names ++ rest) n place) :
    ∃ k m between, t.Leads here names k between ∧ t.Leads between rest m place := by
  induction names generalizing here n with
  | nil => exact ⟨0, n, here, .done, h⟩
  | cons name names ih =>
    cases h with
    | stay hs h =>
      obtain ⟨k, m, between, hk, hm⟩ := ih h
      exact ⟨k, m, between, .stay hs hk, hm⟩
    | up h =>
      obtain ⟨k, m, between, hk, hm⟩ := ih h
      exact ⟨k, m, between, .up hk, hm⟩
    | into hs hn hlink h =>
      obtain ⟨k, m, between, hk, hm⟩ := ih h
      exact ⟨k, m, between, .into hs hn hlink hk, hm⟩
    | detour hs hn hlink hfirst h =>
      obtain ⟨k, m, between, hk, hm⟩ := ih h
      exact ⟨_, m, between, .detour hs hn hlink hfirst hk, hm⟩

theorem Walks.leads (h : Walks t .target links here names (.taken place)) :
    ∃ n, t.Leads here names n place := by
  generalize hspot : Spot.taken place = spot at h
  induction h with
  | done =>
    cases hspot
    exact ⟨0, .done⟩
  | stay _ hs _ ih =>
    obtain ⟨n, h⟩ := ih hspot
    exact ⟨n, .stay hs h⟩
  | up _ _ ih =>
    obtain ⟨n, h⟩ := ih hspot
    exact ⟨n, .up h⟩
  | free => cases hspot
  | into hl hnode _ ih =>
    obtain ⟨n, h⟩ := ih hspot
    exact ⟨n, .into hl.moves hl.down (link?_of_node? hnode hl.opened) h⟩
  | file hl hnode =>
    cases hspot
    exact ⟨0, .into hl.moves hl.down (link?_of_node? hnode hl.opened) .done⟩
  | entry _ _ haim => cases haim
  | detour hl hnode _ _ ih =>
    obtain ⟨n, h⟩ := ih hspot
    obtain ⟨k, m, between, hk, hm⟩ := h.split
    exact ⟨_, .detour hl.moves hl.down (link?_of_node? hnode hl.opened) hk hm⟩

theorem resolve_into {pending : List Place} (hs : ¬ stays name = true) (hn : name ≠ "..")
    (hlink : t.link? (here ++ [name]) = none) :
    t.resolve pending here (name :: rest) = t.resolve pending (here ++ [name]) rest := by
  rw [resolve, if_neg hs, if_neg hn]
  dsimp only
  split
  · rfl
  · next hsome => cases hlink.symm.trans hsome

theorem resolve_detour {pending : List Place} {target : String} {between : Place}
    (hs : ¬ stays name = true) (hn : name ≠ "..") (hlink : t.link? (here ++ [name]) = some target)
    (hp : here ++ [name] ∉ pending)
    (h : t.resolve ((here ++ [name]) :: pending) (startOf target here) (steps target) = .ok between) :
    t.resolve pending here (name :: rest) = t.resolve pending between rest := by
  rw [resolve, if_neg hs, if_neg hn]
  dsimp only
  split
  · next hnone => cases hlink.symm.trans hnone
  · next hsome =>
    cases hlink.symm.trans hsome
    rw [if_neg hp, h]

/-- Following the links comes to the same place. A link whose target is being followed is not met
again on the way, because its target takes more links than there are still to come. -/
theorem Leads.resolve {n : Nat} {pending : List Place} (h : t.Leads here names n place)
    (hp : ∀ link ∈ pending, ∀ target m between, t.link? link = some target →
      t.Leads (startOf target link.dropLast) (steps target) m between → n ≤ m) :
    t.resolve pending here names = .ok place := by
  induction h generalizing pending with
  | done => rw [FileTree.resolve]
  | stay hs _ ih =>
    rw [FileTree.resolve, if_pos hs]
    exact ih hp
  | up _ ih =>
    rw [FileTree.resolve, if_neg (by decide), if_pos rfl]
    exact ih hp
  | into hs hn hlink _ ih =>
    rw [resolve_into hs hn hlink]
    exact ih hp
  | @detour here between place name target rest m n hs hn hlink hm _ ihm ihn =>
    have hnew : here ++ [name] ∉ pending := fun hmem => by
      have hle := hp _ hmem target m between hlink (by rwa [List.dropLast_concat])
      omega
    have hdetour := @ihm ((here ++ [name]) :: pending) fun link hmem target' k q hl hk => by
      rcases List.mem_cons.1 hmem with rfl | hmem
      · cases hlink.symm.trans hl
        rw [List.dropLast_concat] at hk
        exact Nat.le_of_eq (hm.unique hk).1
      · have hle := hp link hmem target' k q hl hk
        omega
    rw [resolve_detour hs hn hlink hnew hdetour]
    refine ihn fun link hmem target' k q hl hk => ?_
    have hle := hp link hmem target' k q hl hk
    omega

theorem Leads.canonical? {n : Nat} {cwd : Place} {path : String}
    (h : t.Leads (startOf path cwd) (steps path) n place) : t.canonical? cwd path = some place := by
  rw [FileTree.canonical?, h.resolve fun _ hmem => absurd hmem List.not_mem_nil]

/-- Without links and `..` names lead where they say. -/
theorem Straight.leads (h : t.Straight here names) : t.Leads here names 0 (here ++ names) := by
  induction names generalizing here with
  | nil =>
    rw [List.append_nil]
    exact .done
  | cons name rest ih =>
    obtain ⟨hs, hn⟩ := h.down name List.mem_cons_self
    have hrest := ih h.tail
    rw [List.append_assoc] at hrest
    exact .into hs hn (h.unlinked _ ⟨rest, by simp⟩) hrest

section Found

variable {cwd : Place} {path : String}

structure IsPath (path : String) : Prop where
  plain : '\x00' ∉ path.toList
  nonempty : path ≠ ""
  short : path.utf8ByteSize < maxPath

theorem IsPath.of_append {more : String} (h : IsPath (path ++ more)) (hne : path ≠ "") :
    IsPath path where
  plain hnul := h.plain (by rw [String.toList_append]; exact List.mem_append_left _ hnul)
  nonempty := hne
  short := by
    have hshort := h.short
    rw [String.utf8ByteSize_append] at hshort
    omega

theorem find_ok_iff : t.find cwd path aim = .ok spot ↔
    IsPath path ∧ Walks t aim maxLinks (startOf path cwd) (steps path) spot := by
  constructor
  · intro h
    unfold find at h
    split at h
    · cases h
    next hnul =>
    split at h
    · cases h
    next hempty =>
    split at h
    · cases h
    next hlong =>
    exact ⟨⟨by simpa using hnul, hempty, Nat.lt_of_not_le hlong⟩, walks_of_walk h⟩
  · rintro ⟨hpath, hwalk⟩
    rw [find, if_neg (by simpa using hpath.plain), if_neg hpath.nonempty,
      if_neg (Nat.not_le_of_lt hpath.short), hwalk.walk]

theorem stat_of_find (h : t.find cwd path .target = .ok (.taken place)) :
    t.stat cwd path = match t.node? place with
      | some n => .ok (place, n)
      | none => .error .notFound := by
  rw [stat, h]
  rfl

theorem stat_ok_iff {n : FileNode} : t.stat cwd path = .ok (place, n) ↔
    t.find cwd path .target = .ok (.taken place) ∧ t.node? place = some n := by
  constructor
  · intro h
    cases hf : t.find cwd path .target with
    | error e =>
      rw [stat, hf] at h
      cases h
    | ok spot =>
      cases spot with
      | free place =>
        rw [stat, hf] at h
        cases h
      | taken other =>
        rw [stat_of_find hf] at h
        cases hn : t.node? other with
        | none =>
          rw [hn] at h
          cases h
        | some m =>
          rw [hn] at h
          cases h
          exact ⟨rfl, hn⟩
  · rintro ⟨hf, hn⟩
    rw [stat_of_find hf, hn]

theorem exists?_eq_true_iff :
    t.exists? cwd path = .ok true ↔ ∃ place n, t.stat cwd path = .ok (place, n) := by
  unfold exists?
  cases t.stat cwd path with
  | ok found => exact iff_of_true rfl ⟨found.1, found.2, rfl⟩
  | error e =>
    refine iff_of_false (fun h => ?_) (fun ⟨_, _, h⟩ => nomatch h)
    dsimp only at h
    split at h <;> cases h

theorem exists?_of_find_free (h : t.find cwd path .target = .ok (.free place)) :
    t.exists? cwd path = .ok false := by
  rw [exists?, stat, h]
  rfl

theorem read_of_stat {content : ByteArray} {executable : Bool}
    (h : t.stat cwd path = .ok (place, .file content executable)) :
    t.read cwd path = .ok content := by
  rw [read, h]
  rfl

/-- A file in the root is read under its name behind a slash. -/
theorem read_rooted (name : String) {content : ByteArray} {executable : Bool} (hpath : IsPath path)
    (hsteps : steps path = [name]) (hstart : startOf path cwd = [])
    (hl : LookedUp t [] .target name []) (hn : t.node? [name] = some (.file content executable)) :
    t.read cwd path = .ok content := by
  have hwalk : Walks t .target maxLinks (startOf path cwd) (steps path) (.taken [name]) := by
    rw [hsteps, hstart]
    exact .file hl hn
  exact read_of_stat (stat_ok_iff.2 ⟨find_ok_iff.2 ⟨hpath, hwalk⟩, hn⟩)

/-- What is a directory is found as one, and can be named without links. -/
theorem find_of_isDirectory? (h : t.isDirectory? cwd path = .ok true) :
    ∃ place, t.find cwd path .target = .ok (.taken place) ∧ t.node? place = some .directory ∧
      t.canonical? cwd path = some place := by
  unfold isDirectory? at h
  split at h
  · next place n hstat =>
    obtain ⟨hf, hn⟩ := stat_ok_iff.1 hstat
    obtain ⟨_, hlead⟩ := (find_ok_iff.1 hf).2.leads
    cases n with
    | directory => exact ⟨place, hf, hn, hlead.canonical?⟩
    | file => cases h
    | link => cases h
  · split at h <;> cases h

end Found

end FileTree

end ShellHistory
