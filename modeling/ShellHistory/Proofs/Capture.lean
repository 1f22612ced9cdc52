import Mathlib.Data.List.Basic
import ShellHistory.Proofs.Line

/-! Storing lines: once a shell has its history, every line that is not blank is stored, once, as it
was typed and before it runs, however often the shell is started again. -/

namespace ShellHistory

open Act

/-- The words of the processes that store a line, among others. -/
def storeArgvs (cs : List Call) : List (List String) :=
  (cs.filter fun c => c.job.role = .backend "store").map fun c => c.job.argv

theorem storeArgvs_append (cs ds : List Call) :
    storeArgvs (cs ++ ds) = storeArgvs cs ++ storeArgvs ds := by
  simp [storeArgvs]

namespace Shell

theorem fire_of_hooks_nil {event : Event} {s : Shell} (h : s.registry.hooks event = [])
    (args : List String) : fire event args s = .ok () s := by
  unfold fire
  rw [get_bind, h, callAll]
  rfl

theorem fire_of_hooks_single {event : Event} {s : Shell} {k : Hook}
    (h : s.registry.hooks event = [k]) (hk : k.added = []) (args : List String) :
    fire event args s = callSafely k args s := by
  unfold fire
  rw [get_bind, h, callAll, hk, List.append_nil, callAll]
  exact congrFun (bind_pure_unit (x := callSafely k args)) s

def storeCall? (s : Shell) (session : Session) (line : String) : Option Call :=
  s.backend.process? ["store", "--", line] (some session) false s.host

theorem role_of_storeCall? {s : Shell} {session : Session} {line : String} {c : Call}
    (h : s.storeCall? session line = some c) : c.job.role = .backend "store" := by
  obtain ⟨binary, -, hj⟩ := Backend.process?_some h
  rw [hj]
  rfl

/-- Where some line can be stored, only a `NUL` keeps a line from being stored. -/
theorem storeCall?_of_other {s : Shell} {session : Session} {line other : String}
    (ho : (s.storeCall? session other).isSome) (hn : '\x00' ∉ line.toList) :
    (s.storeCall? session line).isSome := by
  obtain ⟨c, hc⟩ := Option.isSome_iff_exists.1 ho
  obtain ⟨hc, ht⟩ := Backend.process?_eq_some_iff.1 hc
  obtain ⟨binary, hp, he, hj⟩ := Backend.call?_ok hc
  obtain ⟨binary', environ, hp', hd⟩ | ⟨kind, hp', -⟩ := s.backend.call?_cases
    ["store", "--", line] (some session) false s.host.environ
  · obtain ⟨_, -, he', -⟩ := Backend.call?_ok hd
    cases hp.symm.trans hp'
    cases he.symm.trans he'
    refine Option.isSome_of_eq_some (Backend.process?_of_told hd ?_)
    rw [Host.untold?_eq_none_iff] at ht ⊢
    refine ht.imp_right fun ⟨hnames, htexts⟩ => ⟨hnames, fun text htext => ?_⟩
    simp only [Call.texts, hj, Job.texts, List.cons_append, List.nil_append, List.mem_cons]
      at htexts htext
    rcases htext with rfl | rfl | rfl | rfl | htext
    · exact htexts _ (.inl rfl)
    · exact htexts _ (.inr (.inl rfl))
    · exact htexts _ (.inr (.inr (.inl rfl)))
    · exact hn
    · exact htexts _ (.inr (.inr (.inr (.inr htext))))
  · cases hp.symm.trans hp'

/-- A hook that fails is noted, unless it is interrupted. -/
theorem callSafely_of_error {k : Hook} {args : List String} {s t : Shell} {f : Failure}
    (h : call k args s = .error f t) (hf : f ≠ .interrupted) : ∃ records,
      callSafely k args s = .ok () { t with host := { t.host with records := records } } := by
  obtain ⟨records, hlog⟩ := Host.log_apply .error "vellum_integration.hooks"
    ("hook " ++ k.name ++ " failed") (some f) t.host
  refine ⟨records, ?_⟩
  unfold callSafely
  rw [h]
  split
  · next hx => cases hx
  · next hx =>
    cases hx
    exact absurd rfl hf
  · next hx =>
    cases hx
    exact onHost_of_ok hlog

/-- All that can come of a hook that stores a line: there is no process, and that is noted; its
process is broken off; or it ends, however that may be. -/
inductive Storing (session : Session) (line : String) (s : Shell) :
    EStateM.Result Failure Shell Unit → Prop
  | unmade {records : List Record} : s.storeCall? session line = none →
      Storing session line s (.ok () { s with host := { s.host with records := records } })
  | interrupted {c : Call} : s.storeCall? session line = some c → s.host.next c = .interrupted →
      Storing session line s (.error .interrupted { s with host := s.host.after c })
  | made {c : Call} {records : List Record} : s.storeCall? session line = some c →
      Storing session line s
        (.ok () { s with host := { s.host.after c with records := records } })

theorem callSafely_captureOf (session : Session) (line : String) (s : Shell) :
    Storing session line s (callSafely (Hook.captureOf session) [line] s) := by
  have hcall : call (Hook.captureOf session) [line] s =
      (discard (onHost (s.backend.run ["store", "--", line] (some session) false)) :
        Act Shell Unit) s := rfl
  generalize hr : s.backend.run ["store", "--", line] (some session) false s.host = x
  cases hr ▸ s.backend.run_called ["store", "--", line] (some session) false s.host with
  | @unusable f hc =>
    have hf : f ≠ .interrupted := by
      rintro rfl
      obtain ⟨_, _, _, he⟩ | ⟨_, -, he⟩ := s.backend.call?_cases ["store", "--", line]
        (some session) false s.host.environ
      · cases hc.symm.trans he
      · cases hc.symm.trans he
    rw [discard_of_error (onHost_of_error hr)] at hcall
    obtain ⟨records, hx⟩ := callSafely_of_error hcall hf
    exact hx ▸ .unmade (Backend.process?_of_error hc)
  | @untold c f hc hf =>
    rw [discard_of_error (onHost_of_error hr)] at hcall
    obtain ⟨records, hx⟩ := callSafely_of_error hcall (Host.untold?_ne_interrupted hf)
    exact hx ▸ .unmade (Backend.process?_of_untold hc hf)
  | @interrupted c hc ht hn =>
    rw [callSafely, hcall, discard_of_error (onHost_of_error hr)]
    exact .interrupted (Backend.process?_of_told hc ht) hn
  | @garbled c status hc ht =>
    rw [discard_of_error (onHost_of_error hr)] at hcall
    obtain ⟨records, hx⟩ := callSafely_of_error hcall nofun
    exact hx ▸ .made (Backend.process?_of_told hc ht)
  | @ended c r records hc ht =>
    rw [callSafely, hcall, discard_of_ok (onHost_of_ok hr)]
    exact .made (Backend.process?_of_told hc ht)

/-- What has been done when a line has been stored, or could not be. -/
structure Stored (session : Session) (line : String) (s t : Shell) : Prop where
  host : ∃ h, t = { s with host := h } ∧ h.environ = s.host.environ ∧
    h.processes = s.host.processes
  calls : t.host.calls = s.host.calls ++ (s.storeCall? session line).toList

theorem callSafely_captureOf_ok {session : Session} {line : String} {s t : Shell}
    (h : callSafely (Hook.captureOf session) [line] s = .ok () t) : Stored session line s t := by
  cases h ▸ callSafely_captureOf session line s with
  | unmade hn =>
    refine ⟨⟨_, rfl, rfl, rfl⟩, ?_⟩
    rw [hn]
    exact (List.append_nil _).symm
  | made hc =>
    refine ⟨⟨_, rfl, rfl, rfl⟩, ?_⟩
    rw [hc]
    rfl

end Shell

namespace Repl

inductive Step
  | start
  | execute (line : String)
  deriving DecidableEq, Repr

def act : Step → Act Repl Unit
  | .start => discard start
  | .execute line => discard (execute line)

def Step.line? : Step → Option String
  | .start => none
  | .execute line => if line.toList.all Text.isBlank then none else some line

def started (g : Stage Repl Step Unit) : List Call :=
  g.before.shell.host.startedSince g.after.shell.host

/-- A shell that has no history yet, nor any hooks. -/
structure Fresh (b : Backend) (r : Repl) : Prop where
  backend : r.shell.backend = b
  registry : r.shell.registry = .empty
  integration : r.shell.integration = none

theorem create_fresh (host : Host) (c : Config) (interactive : Bool) :
    Fresh (Shell.backendOf c host.environ) (create host c interactive) := ⟨rfl, rfl, rfl⟩

/-- A shell with its history. Its environment tells that it must not be set up again. -/
structure Attached (b : Backend) (session : Session) (r : Repl) : Prop where
  backend : r.shell.backend = b
  hooks : r.shell.registry.hooks .preexec = [Hook.captureOf session]
  integration : r.shell.integration.map (·.context.session) = some session
  isDone : Setup.isDone r.environ = true

theorem start_of_setUp {r : Repl} {s : Shell} {done : Bool}
    (h : Shell.setUp r.config r.interactive r.shell = .ok done s) :
    start r = .ok s.integration.isSome { r with shell := s, running := true } := by
  unfold start
  rw [get_bind, bind_of_ok (discard_of_ok (onShell_of_ok h)), modify_bind, get_bind, pure_apply]

theorem start_ok {r t : Repl} {a : Bool} (h : start r = .ok a t) :
    ∃ done s, Shell.Tried r.config r.interactive r.shell done s ∧ a = s.integration.isSome ∧
      t = { r with shell := s, running := true } := by
  unfold start at h
  rw [get_bind] at h
  obtain ⟨_, u, hu, h⟩ := bind_ok h
  obtain ⟨done, hu⟩ := discard_ok hu
  unfold onShell at hu
  split at hu
  · next s hs =>
    cases hu
    cases h
    exact ⟨done, s, Shell.setUp_tried hs, rfl, rfl⟩
  · cases hu

theorem execute_ok {line : String} {r t : Repl} {status : Int}
    (h : execute line r = .ok status t) :
    (line.toList.all Text.isBlank ∧ t = r) ∨ (¬line.toList.all Text.isBlank ∧ ∃ s,
      Shell.fire .preexec [line] r.shell = .ok () s ∧ Unhooked line { r with shell := s } t ∧
      t.shell.host.calls = s.host.calls ++ handedOver { r with shell := s } line) := by
  cases h ▸ execute_executed line r with
  | blank hw => exact .inl ⟨Text.words_eq_nil_iff.1 hw, rfl⟩
  | handled hw hf hh =>
    exact .inr ⟨fun hb => hw (Text.words_eq_nil_iff.2 hb), _, hf, hh.unhooked,
      hh.calls_of_ok rfl⟩

theorem Fresh.start {b : Backend} {r t : Repl} {a : Bool} (hr : Fresh b r)
    (h : start r = .ok a t) : (a = false ∧ Fresh b t) ∨ ∃ session, Attached b session t := by
  obtain ⟨done, s, hs, ha, rfl⟩ := start_ok h
  cases hs.setUp with
  | refused => exact .inl ⟨by rw [ha, hr.integration]; rfl, hr.backend, hr.registry, hr.integration⟩
  | @done session h' _ _ hd =>
    refine .inr ⟨session, hr.backend, ?_, rfl, hd⟩
    rw [hr.registry]
    rfl

theorem Fresh.execute {b : Backend} {line : String} {r t : Repl} {status : Int} (hr : Fresh b r)
    (h : execute line r = .ok status t) : Fresh b t := by
  obtain ⟨-, rfl⟩ | ⟨-, s, hf, hu, -⟩ := execute_ok h
  · exact hr
  have hnil : r.shell.registry.hooks .preexec = [] := by
    rw [hr.registry]
    rfl
  cases (Shell.fire_of_hooks_nil hnil [line]).symm.trans hf
  obtain ⟨h', ht⟩ := hu.host
  exact ⟨by rw [ht]; exact hr.backend, by rw [ht]; exact hr.registry,
    by rw [ht]; exact hr.integration⟩

/-- What a step of a shell with its history does to the processes. -/
inductive Kept (session : Session) (r : Repl) : Step → Repl → Prop
  | again {err : String} :
      Kept session r .start { r.withHost { r.shell.host with err := err } with running := true }
  | blank {line : String} : line.toList.all Text.isBlank → Kept session r (.execute line) r
  | ran {line : String} {t : Repl} : ¬line.toList.all Text.isBlank →
      t.shell.host.processes = r.shell.host.processes →
      t.shell.host.calls = r.shell.host.calls ++
        ((r.shell.storeCall? session line).toList ++ r.handedOver line) →
      Kept session r (.execute line) t

theorem Attached.start {b : Backend} {session : Session} {r t : Repl} {a : Bool}
    (hr : Attached b session r) (h : start r = .ok a t) :
    Attached b session t ∧ Kept session r .start t := by
  obtain ⟨done, s, hs, -, rfl⟩ := start_ok h
  cases hs.setUp with
  | refused => exact ⟨⟨hr.backend, hr.hooks, hr.integration, hr.isDone⟩, .again⟩
  | done _ hn => exact absurd (hr.isDone.symm.trans hn) (by decide)

theorem Attached.execute {b : Backend} {session : Session} {line : String} {r t : Repl}
    {status : Int} (hr : Attached b session r) (h : execute line r = .ok status t) :
    Attached b session t ∧ Kept session r (.execute line) t := by
  obtain ⟨hb, rfl⟩ | ⟨hb, s, hf, hu, hcalls⟩ := execute_ok h
  · exact ⟨hr, .blank hb⟩
  rw [Shell.fire_of_hooks_single hr.hooks rfl] at hf
  obtain ⟨⟨h', rfl, he, hp⟩, hstore⟩ := Shell.callSafely_captureOf_ok hf
  obtain ⟨h'', ht⟩ := hu.host
  refine ⟨⟨by rw [ht]; exact hr.backend, by rw [ht]; exact hr.hooks,
    by rw [ht]; exact hr.integration, ?_⟩, .ran hb (hu.processes.trans hp) ?_⟩
  · rw [hu.isDone]
    exact (congrArg Setup.isDone he).trans hr.isDone
  · have hover : handedOver { r with shell := { r.shell with host := h' } } line =
        r.handedOver line := by
      simp only [handedOver, callOf, environ, he]
    rw [hcalls, hover, ← List.append_assoc]
    exact congrArg (· ++ _) hstore

theorem act_attached {b : Backend} {session : Session} {step : Step} {r t : Repl}
    (hr : Attached b session r) (h : act step r = .ok () t) :
    Attached b session t ∧ Kept session r step t := by
  cases step with
  | start =>
    obtain ⟨a, h⟩ := discard_ok h
    exact hr.start h
  | execute line =>
    obtain ⟨status, h⟩ := discard_ok h
    exact hr.execute h

def lines (run : List (Stage Repl Step Unit)) : List String :=
  (run.map Stage.step).filterMap Step.line?

/-- The line that a step stores, if it runs one and the system can be told to store it. -/
def stored? (session : Session) (g : Stage Repl Step Unit) : Option String :=
  g.step.line?.filter fun line => (g.before.shell.storeCall? session line).isSome

theorem foldl_stored (session : Session) (run : List (Stage Repl Step Unit)) (k : List String) :
    run.foldl (fun k g => k ++ (stored? session g).toList) k =
      k ++ run.filterMap (stored? session) := by
  induction run generalizing k with
  | nil => simp
  | cons g rest ih =>
    rw [List.foldl_cons, ih, List.filterMap_cons, List.append_assoc]
    cases stored? session g <;> rfl

theorem storeArgvs_handedOver (r : Repl) (line : String) : storeArgvs (r.handedOver line) = [] := by
  unfold handedOver
  split
  · rfl
  · rfl

theorem storeArgvs_storeCall? {s : Shell} {session : Session} {line : String} {c : Call}
    (h : s.storeCall? session line = some c) :
    storeArgvs [c] = [[s.backend.program?.getD "", "store", "--", line]] := by
  obtain ⟨binary, hp, hj⟩ := Backend.process?_some h
  simp [storeArgvs, hj, hp, Job.role, Job.argv]

/-- A step of a shell with its history stores the line that it runs and no other. -/
theorem Kept.stored {session : Session} {r t : Repl} {step : Step} (h : Kept session r step t) :
    t.shell.host.processes = r.shell.host.processes ∧
    ∃ cs, t.shell.host.calls = r.shell.host.calls ++ cs ∧
      storeArgvs cs = (stored? session ⟨step, r, (), t⟩).toList.map fun line =>
        [r.shell.backend.program?.getD "", "store", "--", line] := by
  cases h with
  | again => exact ⟨rfl, [], (List.append_nil _).symm, rfl⟩
  | blank hb =>
    refine ⟨rfl, [], (List.append_nil _).symm, ?_⟩
    rw [stored?, Step.line?, if_pos hb]
    rfl
  | @ran line t hb hp hc =>
    refine ⟨hp, _, hc, ?_⟩
    rw [storeArgvs_append, storeArgvs_handedOver, List.append_nil, stored?, Step.line?, if_neg hb]
    cases hs : r.shell.storeCall? session line with
    | none => rw [Option.filter_some_neg (by simp [hs])]; rfl
    | some c =>
      rw [Option.filter_some_pos (by simp [hs])]
      exact storeArgvs_storeCall? hs

/-- What one step of a shell with its history starts, and in which order. -/
theorem Kept.each {session : Session} {g : Stage Repl Step Unit}
    (h : Kept session g.before g.step g.after) : (g.step = .start → started g = []) ∧
      ∀ line, g.step = .execute line →
        (line.toList.all Text.isBlank → g.after = g.before) ∧
        (¬line.toList.all Text.isBlank → started g =
          (g.before.shell.storeCall? session line).toList ++ g.before.handedOver line) ∧
        ∀ other, (g.before.shell.storeCall? session other).isSome → '\x00' ∉ line.toList →
          (g.before.shell.storeCall? session line).isSome := by
  obtain ⟨step, r, answer, t⟩ := g
  change Kept session r step t at h
  cases h with
  | again =>
    exact ⟨fun _ => Host.startedSince_of_calls (List.append_nil _).symm, fun line h => by cases h⟩
  | blank hb =>
    refine ⟨nofun, fun line h => ?_⟩
    cases h
    exact ⟨fun _ => rfl, fun hn => absurd hb hn, fun _ => Shell.storeCall?_of_other⟩
  | ran hn _ hc =>
    refine ⟨nofun, fun line h => ?_⟩
    cases h
    exact ⟨fun hb => absurd hb hn, fun _ => Host.startedSince_of_calls hc,
      fun _ => Shell.storeCall?_of_other⟩

/-- A shell that has its history keeps it, and what has been stored is told by the steps. -/
theorem Attached.along {b : Backend} {session : Session} {r t : Repl}
    {run : List (Stage Repl Step Unit)} (h : Attached b session r) (hr : Run act r run t) :
    storeArgvs (r.shell.host.startedSince t.shell.host) = (run.filterMap (stored? session)).map
        (fun line => [b.program?.getD "", "store", "--", line]) ∧
      ∀ pre g post, run = pre ++ g :: post → Attached b session g.before ∧
        g.before.shell.host.processes = r.shell.host.processes ∧
        Kept session g.before g.step g.after := by
  obtain ⟨⟨-, -, cs, hc, hst⟩, hpre⟩ := hr.tracked (fun k g => k ++ (stored? session g).toList)
    (R := fun k u => Attached b session u ∧
      u.shell.host.processes = r.shell.host.processes ∧
      ∃ cs, u.shell.host.calls = r.shell.host.calls ++ cs ∧
        storeArgvs cs = k.map fun line => [b.program?.getD "", "store", "--", line])
    (by
      rintro k step u _ v ⟨hu, hp, cs, hc, hst⟩ ha
      obtain ⟨hv, hk⟩ := act_attached hu ha
      obtain ⟨hp', ds, hd, hst'⟩ := hk.stored
      refine ⟨hv, hp'.trans hp, cs ++ ds, by rw [hd, hc, List.append_assoc], ?_⟩
      rw [storeArgvs_append, hst, hst', hu.backend, List.map_append])
    (k := []) ⟨h, rfl, [], (List.append_nil _).symm, rfl⟩
  refine ⟨?_, fun pre g post he => ?_⟩
  · rw [Host.startedSince_of_calls hc, hst, foldl_stored, List.nil_append]
  · obtain ⟨⟨hg, hp, -⟩, ha⟩ := hpre pre g post he
    exact ⟨hg, hp, (act_attached hg ha).2⟩

def sample : Repl :=
  let h := Host.scripted ⟨[("PATH", "/"), ("VELLUM_SESSION", "t")]⟩
    [(.backend "store", [.exited ⟨"", "", 1⟩, .refused .notFound])]
  create { h with files := FileTree.empty.put ["fzf"] (.file .empty true) } .default true

theorem hasSelector_sample : Setup.hasSelector sample.shell.host sample.config
    (sample.shell.host.environ.get? "PATH") = .ok true :=
  Setup.hasSelector_selectorFiles rfl rfl rfl

theorem start_sample : ∃ r, start sample = .ok true r ∧ r.shell.host.processes = .played ∧
    succeed act [.execute "ls 'a  b'", .execute " \t", .execute "exit 3"] r = true := by
  obtain ⟨s, hset, hi, hplayed, hgood⟩ :
      ∃ s, Shell.setUp sample.config sample.interactive sample.shell = .ok true s ∧
        s.integration.isSome = true ∧ s.host.processes = .played ∧
        succeed act [.execute "ls 'a  b'", .execute " \t", .execute "exit 3"]
          { sample with shell := s, running := true } = true := by
    unfold Shell.setUp
    rw [get_bind, hasSelector_sample, ofExcept_ok, pure_bind]
    exact ⟨_, rfl, rfl, rfl, by decide +kernel⟩
  exact ⟨_, (start_of_setUp hset).trans (congrArg (EStateM.Result.ok · _) hi), hplayed, hgood⟩

end Repl
end ShellHistory
