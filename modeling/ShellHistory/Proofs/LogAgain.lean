import ShellHistory.Proofs.LogFiles
import ShellHistory.Proofs.Process

/-! Setting up the log again and again. A file that is open is known by the name it was opened under,
and what is looked for among these names is the place that the path leads to. Where the two are the
same the file is opened once, and no two names ever stand for one file. Where they differ, because
there is a link or a `..` on the way, the file is opened once more each time. -/

namespace ShellHistory.Diagnostics

open Act FileTree

variable {c : Config} {h k : Host} {path : Path}

/-- The machine when the log has been set up so many times in a row. A failure leaves it as far as
the set-up had come. -/
def after (c : Config) : Nat → Host → Host
  | 0, h => h
  | n + 1, h => after c n (endOf (setUp c h))

/-- The file of the log is open, and setting up the log can only come to opening it again. -/
structure Ready (c : Config) (h : Host) (path : Path) : Prop where
  threshold : thresholdOf c.logLevel = .ok h.threshold
  configured : logPath? c h = some path
  reached : h.files.Reached h.cwd
  written : Written h path
  known : fullName h path ∈ h.logFiles

theorem Ready.isOpen_iff (hr : Ready c h path) : isOpen h path = .ok false ↔ Missed h path :=
  isOpen_eq_false_iff (List.ne_nil_of_mem hr.known) hr.written.plain

theorem Ready.kept (hr : Ready c h path) (hm : ¬ Missed h path) : endOf (setUp c h) = h := by
  refine endOf_setUp_of_kept hr.threshold fun path' hpath => ?_
  cases hr.configured.symm.trans hpath
  exact fun hopen => hm (hr.isOpen_iff.1 hopen)

theorem Ready.opened (hr : Ready c h path) (hm : Missed h path) :
    endOf (setUp c h) = { h with logFiles := h.logFiles ++ [fullName h path] } := by
  rw [endOf_setUp_of_opening hr.threshold hr.configured (hr.isOpen_iff.2 hm)]
  exact hr.written.endOf_openFile hr.reached

/-- What is not missed is left as it is, however often the log is set up. -/
theorem Ready.after_of_not_missed (hr : Ready c h path) (hm : ¬ Missed h path) (n : Nat) :
    after c n h = h := by
  induction n with
  | zero => rfl
  | succ n ih => rw [after, hr.kept hm, ih]

theorem Ready.after_of_missed (hr : Ready c h path) (hm : Missed h path) (n : Nat) :
    after c n h = { h with logFiles := h.logFiles ++ List.replicate n (fullName h path) } := by
  induction n generalizing h with
  | zero => rw [List.replicate_zero, List.append_nil, after]
  | succ n ih =>
    have hnext : Ready c { h with logFiles := h.logFiles ++ [fullName h path] } path :=
      ⟨hr.threshold, hr.configured, hr.reached, ⟨hr.written.directory, hr.written.file⟩,
        List.mem_append_left _ hr.known⟩
    have hmissed : Missed { h with logFiles := h.logFiles ++ [fullName h path] } path := by
      obtain ⟨place, hplace, hnew⟩ := hm
      refine ⟨place, hplace, fun hmem => ?_⟩
      rcases List.mem_append.1 hmem with hmem | hmem
      · exact hnew hmem
      · exact hnew (List.mem_singleton.1 hmem ▸ hr.known)
    rw [after, hr.opened hm, ih hnext hmissed, List.replicate_succ, List.append_assoc,
      List.singleton_append]
    rfl

/-- A path that is taken as it stands: no `..` in it, no link on the way, and no root but the one. -/
structure Plain (h : Host) (path : Path) : Prop where
  root : path.root ≠ .two
  down : ".." ∉ path.names
  unlinked : ∀ place, place <+: (fullName h path).names → h.files.link? place = none

def plainPlace (h : Host) (path : Path) : Place :=
  (if path.root = .none then h.cwd else []) ++ path.names

theorem Plain.proper (hp : Plain h path) (hcwd : Proper h.cwd) (hnamed : path.Named) :
    Proper (plainPlace h path) := by
  intro name hn
  rcases List.mem_append.1 hn with hn | hn
  · split at hn
    · exact hcwd name hn
    · cases hn
  · exact ⟨hnamed name hn, fun hup => hp.down (hup ▸ hn)⟩

theorem Plain.fullName_eq (hp : Plain h path) (hcwd : Proper h.cwd) (hnamed : path.Named) :
    fullName h path = Path.ofPlace (plainPlace h path) := by
  have hup : ".." ∉ plainPlace h path := fun hn => (hp.proper hcwd hnamed _ hn).2 rfl
  obtain ⟨root, names⟩ := path
  cases root with
  | none | one => exact congrArg (Path.mk .one) (Path.lexicalNames_of_down hup)
  | two => exact absurd rfl hp.root

/-- A plain path is looked for under the name that it is opened under. -/
theorem Plain.canonical? (hp : Plain h path) (hcwd : Proper h.cwd) (hnamed : path.Named) :
    h.files.canonical? h.cwd path.toText = some (plainPlace h path) := by
  have hunlinked := hp.unlinked
  rw [hp.fullName_eq hcwd hnamed] at hunlinked
  have hstraight : h.files.Straight (if path.root = .none then h.cwd else []) path.names :=
    straight_of_proper (fun name hn => hp.proper hcwd hnamed name (List.mem_append_right _ hn))
      hunlinked
  have hleads : h.files.Leads (startOf path.toText h.cwd) (steps path.toText) 0
      (plainPlace h path) := by
    by_cases hempty : path.root ≠ .none ∨ path.names ≠ []
    · rw [startOf_toText hnamed, steps_toText hnamed hempty]
      exact hstraight.leads
    · obtain ⟨hroot, hnames⟩ : path.root = .none ∧ path.names = [] := by simpa using hempty
      obtain ⟨root, names⟩ := path
      cases hroot
      cases hnames
      rw [show plainPlace h ⟨.none, []⟩ = h.cwd from List.append_nil _,
        show steps (Path.toText ⟨.none, []⟩) = ["."] by decide]
      exact .stay (by decide) .done
  exact hleads.canonical?

theorem Plain.eq_plainPlace {place : Place} {n : FileNode} (hp : Plain h path)
    (hcwd : Proper h.cwd) (hnamed : path.Named)
    (hstat : h.files.stat h.cwd (fullName h path).toText = .ok (place, n)) :
    place = plainPlace h path := by
  have hproper := hp.proper hcwd hnamed
  have hunlinked := hp.unlinked
  rw [hp.fullName_eq hcwd hnamed] at hunlinked hstat
  have hfull : (Path.ofPlace (plainPlace h path)).Named := fun name hn => (hproper name hn).1
  have hwalk := (find_ok_iff.1 (stat_ok_iff.1 hstat).1).2
  rw [Path.ofPlace, startOf_toText hfull, steps_toText hfull (.inl nofun)] at hwalk
  exact hwalk.straight (straight_of_proper hproper hunlinked)

/-- Each open file stands under its own name, and is open only once. -/
structure Separate (h : Host) : Prop where
  distinct : h.logFiles.Nodup
  direct : ∀ p ∈ h.logFiles, ∃ place content executable, p = Path.ofPlace place ∧
    h.files.stat h.cwd p.toText = .ok (place, .file content executable)

/-- No two of the names lead to one file. -/
def Unshared (h : Host) : Prop :=
  ∀ p ∈ h.logFiles, ∀ q ∈ h.logFiles, ∀ place n m, h.files.stat h.cwd p.toText = .ok (place, n) →
    h.files.stat h.cwd q.toText = .ok (place, m) → p = q

theorem Separate.unshared (hs : Separate h) : Unshared h := by
  intro p hp q hq place n m hpn hqm
  obtain ⟨place', _, _, rfl, hp'⟩ := hs.direct p hp
  obtain ⟨place'', _, _, rfl, hq'⟩ := hs.direct q hq
  cases hpn.symm.trans hp'
  cases hqm.symm.trans hq'
  rfl

/-- No file is opened for the log, the first time or later. -/
structure Left (c : Config) (h : Host) : Prop where
  cause : Unopened c h (after c 1 h)
  logFiles : (after c 1 h).logFiles = h.logFiles
  again : ∀ n, after c (n + 1) h = after c 1 h

/-- The file of a path is opened for the log, once or each time. -/
structure Added (c : Config) (h : Host) (path : Path) : Prop where
  configured : logPath? c h = some path
  unknown : isOpen h path = .ok false
  written : Written (after c 1 h) path
  logFiles : (after c 1 h).logFiles = h.logFiles ++ [fullName h path]
  once : ¬ Missed (after c 1 h) path → ∀ n, after c (n + 1) h = after c 1 h
  each : Missed (after c 1 h) path → ∀ n, (after c (n + 1) h).logFiles =
    h.logFiles ++ List.replicate (n + 1) (fullName h path)
  plain : Plain h path → ¬ Missed (after c 1 h) path

theorem Ready.not_missed (hr : Ready c h path) (hp : Plain h path) (hcwd : Proper h.cwd) :
    ¬ Missed h path := by
  rintro ⟨place, hplace, hnew⟩
  have hnamed := named_logPath? hr.configured
  cases hplace.symm.trans (hp.canonical? hcwd hnamed)
  exact hnew (hp.fullName_eq hcwd hnamed ▸ hr.known)

theorem Plain.grows (hp : Plain h path) (hg : h.files.Grows k.files) (hcwd : k.cwd = h.cwd) :
    Plain k path := by
  refine ⟨hp.root, hp.down, fun place hplace => ?_⟩
  rw [fullName, hcwd] at hplace
  rw [hg.links]
  exact hp.unlinked place hplace

theorem SetsUp.left_or_added (hs : SetsUp c h (after c 1 h)) (hcwd : h.files.Resolved h.cwd) :
    Left c h ∨ ∃ path, Added c h path := by
  have hafter (n : Nat) : after c (n + 1) h = after c n (after c 1 h) := rfl
  generalize hk : after c 1 h = k at hs hafter
  cases hs with
  | unopened hcause _ _ hlogFiles hagain =>
    refine .inl ⟨hk ▸ hcause, hk ▸ hlogFiles, fun n => ?_⟩
    rw [hafter, hk]
    induction n with
    | zero => rfl
    | succ n ih => rw [after, hagain, ih]
  | @opened path hlevel hpath hopen hgrows hwritten heq =>
    have hk' : k.cwd = h.cwd := by rw [heq]
    have hfull : fullName k path = fullName h path := by rw [fullName, hk', fullName]
    have hlogFiles : k.logFiles = h.logFiles ++ [fullName h path] := by rw [heq]
    -- from here on there is nothing left to make: the file is found, and opened again or not
    have hready : Ready c k path := by
      refine ⟨hlevel, ?_, ?_, hwritten, ?_⟩
      · rw [heq]
        exact hpath
      · rw [hk']
        exact hgrows.reached hcwd.reached
      · rw [hlogFiles, hfull]
        exact List.mem_append_right _ List.mem_cons_self
    refine .inr ⟨path, hpath, hopen, hk ▸ hwritten, hk ▸ hlogFiles, fun hm n => ?_,
      fun hm n => ?_, fun hp => ?_⟩
    · rw [hk] at hm ⊢
      rw [hafter, hready.after_of_not_missed hm]
    · rw [hk] at hm
      rw [hafter, hready.after_of_missed hm]
      dsimp only
      rw [hfull, hlogFiles, List.replicate_succ, List.append_assoc, List.singleton_append]
    · rw [hk]
      exact hready.not_missed (hp.grows hgrows hk') (hk' ▸ hcwd.proper)

/-- The file of a plain path is another one than those that are open. -/
theorem SetsUp.separate (hs : SetsUp c h k) (hcwd : h.files.Resolved h.cwd)
    (hplain : ∀ path, logPath? c h = some path → Plain h path) (hsep : Separate h) :
    Separate k := by
  have hkept {p : Path} (hg : h.files.Grows k.files) (hp : p ∈ h.logFiles) :
      ∃ place content executable, p = Path.ofPlace place ∧
        k.files.stat h.cwd p.toText = .ok (place, .file content executable) := by
    obtain ⟨place, content, executable, hplace, hstat⟩ := hsep.direct p hp
    exact ⟨place, content, executable, hplace, stat_grows hstat hg⟩
  cases hs with
  | unopened _ hgrows hk hlogFiles _ =>
    refine ⟨hlogFiles ▸ hsep.distinct, fun p hp => ?_⟩
    rw [hk]
    exact hkept hgrows (hlogFiles ▸ hp)
  | @opened path _ hpath hopen hgrows hwritten heq =>
    have hp := hplain path hpath
    have hnamed := named_logPath? hpath
    have hk : k.cwd = h.cwd := by rw [heq]
    have hlogFiles : k.logFiles = h.logFiles ++ [fullName h path] := by rw [heq]
    -- a plain path is looked for under its own name, so it would have been found there
    have hnew : fullName h path ∉ h.logFiles := by
      intro hmem
      obtain ⟨place, hplace, hmissed⟩ :=
        (isOpen_eq_false_iff (List.ne_nil_of_mem hmem) hwritten.plain).1 hopen
      cases hplace.symm.trans (hp.canonical? hcwd.proper hnamed)
      exact hmissed (hp.fullName_eq hcwd.proper hnamed ▸ hmem)
    refine ⟨?_, fun p hmem => ?_⟩
    · rw [hlogFiles, List.nodup_append]
      exact ⟨hsep.distinct, by simp, fun p hp q hq hpq =>
        hnew (List.mem_singleton.1 hq ▸ hpq ▸ hp)⟩
    · rw [hlogFiles] at hmem
      rcases List.mem_append.1 hmem with hmem | hmem
      · rw [hk]
        exact hkept hgrows hmem
      · obtain rfl := List.mem_singleton.1 hmem
        obtain ⟨place, content, executable, hfile⟩ := hwritten.file
        have hp' := hp.grows hgrows hk
        have hproper : Proper k.cwd := hk ▸ hcwd.proper
        have hfull : fullName k path = fullName h path := by rw [fullName, hk, fullName]
        cases hp'.eq_plainPlace hproper hnamed hfile
        rw [hfull] at hfile
        exact ⟨_, content, executable, hfull ▸ hp'.fullName_eq hproper hnamed, hfile⟩

/-- Setting up the log any number of times. No file is opened, if it could not be made for one thing,
or the file of the path is: once if it is not missed, as with every plain path, and else each time.
Where all the paths are plain no two open files are ever one: each is open under its own name, and two
names never lead to one place. -/
theorem set_up_again (c : Config) (h : Host) (hcwd : h.files.Resolved h.cwd) :
    (Left c h ∨ ∃ path, Added c h path) ∧
      ((∀ path, logPath? c h = some path → Plain h path) → Separate h →
        ∀ n, Separate (after c n h) ∧ Unshared (after c n h)) := by
  have hs := setUp_setsUp c hcwd.reached
  have hcases := SetsUp.left_or_added hs hcwd
  refine ⟨hcases, fun hplain hsep n => ?_⟩
  have honce : Separate (after c 1 h) := hs.separate hcwd hplain hsep
  have hever : Separate (after c n h) := by
    cases n with
    | zero => exact hsep
    | succ n =>
      rcases hcases with hleft | ⟨path, hadded⟩
      · rw [hleft.again n]
        exact honce
      · rw [hadded.once (hadded.plain (hplain path hadded.configured)) n]
        exact honce
  exact ⟨hever, hever.unshared⟩

def linked : Host :=
  { Host.scripted ⟨[]⟩ [] with files := ⟨[(["real"], .directory),
    (["real", "log"], .file .empty false), (["lnk"], .link "real")], []⟩ }

def byLink : Config := { Config.default with logFile := .text "/lnk/log" }

def linkedLog : Path := ⟨.one, ["lnk", "log"]⟩

theorem resolved_linked : linked.files.Resolved linked.cwd := ⟨reached_root, nofun⟩

theorem walks_linked {rest : List String} {spot : Spot}
    (h : Walks linked.files .target 39 ["real"] rest spot) :
    Walks linked.files .target maxLinks [] ("lnk" :: rest) spot := by
  have hlink : linked.files.node? ([] ++ ["lnk"]) = some (.link "real") := rfl
  have hreal : linked.files.node? ([] ++ ["real"]) = some .directory := rfl
  refine .detour ⟨admits_of_open List.not_mem_nil _, by decide, by decide, nofun, by decide⟩ hlink
    nofun ?_
  rw [show steps "real" = ["real"] by decide, show startOf "real" [] = [] by decide]
  exact .into ⟨admits_of_open List.not_mem_nil _, by decide, by decide, nofun, by decide⟩ hreal h

theorem find_linkedLog : linked.files.find [] "/lnk/log" .target = .ok (.taken ["real", "log"]) := by
  have hlog : linked.files.node? (["real"] ++ ["log"]) = some (.file .empty false) := rfl
  have hwalk := walks_linked
    (.file ⟨admits_of_open List.not_mem_nil _, by decide, by decide, nofun, by decide⟩ hlog)
  rw [← show steps "/lnk/log" = ["lnk", "log"] by decide] at hwalk
  exact find_ok_iff.2 ⟨⟨by decide, by decide, by decide⟩, hwalk⟩

theorem written_linkedLog : Written linked linkedLog where
  directory := by
    have hwalk := walks_linked .done
    rw [← show steps "/lnk" = ["lnk"] by decide] at hwalk
    exact isDirectory?_of_find (find_ok_iff.2 ⟨⟨by decide, by decide, by decide⟩, hwalk⟩) rfl
  file := ⟨["real", "log"], .empty, false, stat_of_find find_linkedLog⟩

theorem setUp_linked : endOf (setUp byLink linked) =
    { linked with threshold := 30, logFiles := [linkedLog] } := by
  have hlevel : thresholdOf byLink.logLevel = .ok 30 := by decide
  have hpath : logPath? byLink linked = some linkedLog := by decide
  have hwritten : Written { linked with threshold := 30 } linkedLog :=
    ⟨written_linkedLog.directory, written_linkedLog.file⟩
  rw [endOf_setUp, hlevel, hpath]
  exact hwritten.endOf_openFile reached_root

theorem missed_linkedLog : Missed (after byLink 1 linked) linkedLog := by
  obtain ⟨_, hleads⟩ := (find_ok_iff.1 find_linkedLog).2.leads
  rw [after, after, setUp_linked]
  exact ⟨["real", "log"], hleads.canonical?, by decide⟩

theorem set_up_again_linked : linked.files.Resolved linked.cwd ∧
    ∀ n, (after byLink n linked).logFiles = List.replicate n linkedLog := by
  refine ⟨resolved_linked, fun n => ?_⟩
  cases n with
  | zero => rfl
  | succ n =>
    rcases (set_up_again byLink linked resolved_linked).1 with hleft | ⟨path, hadded⟩
    · have hnone := hleft.logFiles
      rw [after, after, setUp_linked] at hnone
      cases hnone
    · cases (show logPath? byLink linked = some linkedLog by decide).symm.trans hadded.configured
      exact hadded.each missed_linkedLog n

/-- By way of the link the one file is opened once more the second time. -/
theorem link_opens_again : (after byLink 1 linked).logFiles = [linkedLog] ∧
    (after byLink 2 linked).logFiles = [linkedLog, linkedLog] ∧ Written linked linkedLog := by
  have hready : Ready byLink (after byLink 1 linked) linkedLog := by
    rw [after, after, setUp_linked]
    exact ⟨by decide, by decide, reached_root,
      ⟨written_linkedLog.directory, written_linkedLog.file⟩, List.mem_cons_self⟩
  have honce : (after byLink 1 linked).logFiles = [linkedLog] := by
    rw [after, after, setUp_linked]
  have htwice : after byLink 2 linked = after byLink 1 (after byLink 1 linked) := rfl
  refine ⟨honce, ?_, written_linkedLog⟩
  rw [htwice, hready.after_of_missed missed_linkedLog, honce]
  rfl

end ShellHistory.Diagnostics
