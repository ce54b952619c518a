/-
# Unpacking all tarballs, and going on after a failure

Tarballs are made sure of one after the other, on a disk that each of them changes. What is done
about a tarball depends on its state when its turn comes. That is the state it has had at the start,
unless a tarball of the same name came before (`makes_next`): `Onward` says what a run leaves as it
was. So the calls of a whole run can be told from the disk that it starts from (`makes_ensureEach`),
and `extractAll_resumes` puts together what a run has done when it succeeds and when it fails.

`callsForAll` is that list of calls: two for the first tarball of each name whose target is missing,
and none for the others. `Machine.Makes` compares it with what a run really does. A run that
succeeds has made exactly these calls; one that fails has made a beginning of them, and which one is
told by the tarball that failed.

`Onward` speaks of every name, those of the list included. A target that is there stays one, unless
it is named like a staging directory of the list; a marker that is no device does not become one;
and names that are not in the list keep their trees and their markers. Each part goes over to a
longer list (`Onward.trans`), which is all that the induction over the tarballs needs. The two
halves of the main theorem are `extractAll_of_ok` and `extractAll_of_error`, and what another run
does afterwards is `calls_again`.
-/

import ProcessKit.Proofs.Cache.Publishing
import ProcessKit.Proofs.Cache.Settled

namespace ProcessKit

variable {α β : Type} {tool : Tool} {machine : Machine} {calls calls' : List ToolCall}

/-- The directory that a call extracts an archive into, if it is one that does. -/
def ToolCall.extractsInto? : ToolCall → Option Path
  | .extract _ dest => some dest
  | .grantAccess _ => none

/-! ### Which calls a run makes -/

/-- **The calls that a run makes:** the first ones of these, and all of them if it succeeds. -/
structure Machine.Makes (machine : Machine) (calls : List ToolCall)
    (outcome : Except Error α × Machine) : Prop where
  first : ∃ made, made <+: calls ∧ outcome.2.calls = machine.calls ++ made
  all : ∀ value, outcome.1 = .ok value → outcome.2.calls = machine.calls ++ calls

namespace Machine

/-- A failure without a call, whichever calls were to be made. -/
theorem makes_of_error {outcome : Except Error α × Machine} {error : Error}
    (h : outcome.1 = .error error) (hcalls : outcome.2.calls = machine.calls) :
    machine.Makes calls outcome :=
  ⟨⟨[], List.nil_prefix, by rw [hcalls, List.append_nil]⟩, fun _ hok => by rw [h] at hok; cases hok⟩

/-- An action that never calls the tool makes no calls, whether it succeeds or fails. -/
theorem makes_of_direct {action : Action α} (h : action.Asks Request.Direct) (tool : Tool)
    (machine : Machine) : machine.Makes [] (action.run tool machine) := by
  have hcalls := Action.calls_of_direct h tool machine
  exact ⟨⟨[], List.nil_prefix, by rw [hcalls, List.append_nil]⟩,
    fun _ _ => by rw [hcalls, List.append_nil]⟩

/-- Calling the tool makes that call, even if it fails. -/
theorem makes_callTool (htool : tool.Confined) (call : ToolCall) :
    machine.Makes [call] ((Action.callTool call).run tool machine) := by
  have hcalls : ((Action.callTool call).run tool machine).2.calls = machine.calls ++ [call] := by
    rw [Action.run_callTool]
    exact (htool call { machine with calls := machine.calls ++ [call] }).1
  exact ⟨⟨[call], List.prefix_rfl, hcalls⟩, fun _ _ => hcalls⟩

/-- **One action after another** makes the calls of the first one and then those of the second. If
the first one fails, what it has made is a beginning of both. -/
theorem Makes.bind {action : Action α} {f : α → Action β}
    (h : machine.Makes calls (action.run tool machine))
    (hf : ∀ value (machine' : Machine), action.run tool machine = (.ok value, machine') →
      machine'.Makes calls' ((f value).run tool machine')) :
    machine.Makes (calls ++ calls') ((action >>= f).run tool machine) := by
  rw [Action.run_bind]
  obtain ⟨⟨made, hmade, hcalls⟩, hall⟩ := h
  cases hrun : action.run tool machine with
  | mk result machine' =>
      rw [hrun] at hcalls hall
      cases result with
      | error error => exact ⟨⟨made, hmade.trans (List.prefix_append ..), hcalls⟩, nofun⟩
      | ok value =>
          obtain ⟨⟨more, hmore, hcalls'⟩, hall'⟩ := hf value machine' hrun
          have hfirst : machine'.calls = machine.calls ++ calls := hall value rfl
          refine ⟨⟨calls ++ more, (List.prefix_append_right_inj calls).2 hmore, ?_⟩,
            fun value' hok => ?_⟩
          · rw [hcalls', hfirst, List.append_assoc]
          · rw [hall' value' hok, hfirst, List.append_assoc]

end Machine

namespace Cache

open Disk Relation

variable {cache : Cache} {home : Place} {technology : Technology} {settings : Settings}

/-- Unpacking makes its two calls, or only the first one if that fails. -/
theorem makes_unpack (htool : tool.Confined) (archive staging : Path) (machine : Machine) :
    machine.Makes [.extract archive staging, .grantAccess staging]
      ((unpack archive staging).run tool machine) :=
  (Machine.makes_callTool htool _).bind fun _ _ _ => Machine.makes_callTool htool _

/-- A missing tarball is unpacked with these two calls. Preparing, publishing and marking make none.
-/
theorem makes_extract (htool : tool.Confined) (tarball : Tarball) (archive : Path) :
    machine.Makes [.extract archive (cache.staging tarball.path),
        .grantAccess (cache.staging tarball.path)]
      ((cache.extract technology tarball archive).run tool machine) := by
  have hprepare := Machine.makes_of_direct
    ((asks_prepareStaging cache tarball.path).mono fun _ h => h.2) tool machine
  refine hprepare.bind fun _ start _ => ?_
  rw [Action.run_bind, Action.run_attempt]
  obtain ⟨⟨made, hmade, hcalls⟩, hall⟩ :=
    makes_unpack htool archive (cache.staging tarball.path) start
  cases hunpack : (unpack archive (cache.staging tarball.path)).run tool start with
  | mk result granted =>
      rw [hunpack] at hcalls hall
      cases result with
      | error error =>
          dsimp only
          rw [Action.run_bind, Action.run_tryRemoveDirAll]
          exact ⟨⟨made, hmade, hcalls⟩, nofun⟩
      | ok =>
          have hrest := Machine.makes_of_direct
            (((asks_publish cache tarball.path).mono fun _ h => h.2).bind fun _ =>
              (asks_markComplete cache tarball.path archive).mono fun _ h => h.2) tool granted
          have hfirst := hall () rfl
          obtain ⟨⟨more, hmore, hcalls'⟩, -⟩ := hrest
          obtain rfl := List.prefix_nil.1 hmore
          have hsame := hcalls'.trans (by rw [List.append_nil, hfirst])
          exact ⟨⟨_, List.prefix_rfl, hsame⟩, fun _ _ => hsame⟩

/-- **The calls that a tarball is unpacked with** on a disk where its target is missing: its archive
is extracted into its staging directory, and access to that is granted. No other tarball needs
any. -/
def callsFor (cache : Cache) (technology : Technology) (settings : Settings) (disk : Disk)
    (tarball : Tarball) : List ToolCall :=
  match cache.stateOn tarball.path disk, technology.baseDir settings tarball.baseVar with
  | .missing, .ok base =>
    [.extract (base.join ⟨tarball.path⟩) (cache.staging tarball.path),
      .grantAccess (cache.staging tarball.path)]
  | _, _ => []

/-- **Making sure of a tarball** makes the calls that its state wants: two if its target is missing,
and none otherwise. A run that fails has made some first ones of these. -/
theorem makes_ensureExtracted (htool : tool.Confined) (tarball : Tarball) :
    machine.Makes (cache.callsFor technology settings machine.disk tarball)
      ((cache.ensureExtracted technology settings tarball).run tool machine) := by
  cases hname : isEntryName tarball.path with
  | false =>
      rw [run_ensureExtracted_invalid cache tool machine technology settings tarball hname]
      exact Machine.makes_of_error rfl rfl
  | true =>
      rw [run_ensureExtracted cache tool machine technology settings tarball hname, callsFor]
      cases technology.baseDir settings tarball.baseVar with
      | error error => exact Machine.makes_of_error rfl rfl
      | ok base =>
          dsimp only
          have hsame {calls : List ToolCall} {log : List (Level × String)}
              {outcome : Except Error Path × Machine}
              (h : { machine with log }.Makes calls outcome) : machine.Makes calls outcome :=
            ⟨h.first, h.all⟩
          cases cache.stateOn tarball.path machine.disk with
          | complete => exact hsame (Machine.makes_of_direct (Action.asks_pure _) tool _)
          | incomplete =>
              refine hsame (Machine.makes_of_direct ?_ tool _)
              exact (Action.asks_log nofun).bind fun _ =>
                ((asks_markComplete cache tarball.path _).mono fun _ h => h.2).bind fun _ =>
                  Action.asks_pure _
          | missing =>
              refine hsame ((makes_extract htool tarball _).bind fun _ _ _ => ?_)
              exact Machine.makes_of_direct
                ((Action.asks_log nofun).bind fun _ => Action.asks_pure _) tool _

/-! ### What a run leaves as it was -/

/-- **What comes of a disk** on which tarballs of some names were made sure of. -/
structure Onward (dir : Path) (home : Place) (processId : Nat) (names : List String)
    (disk disk' : Disk) : Prop where
  plain : ∀ x, Plain dir home x disk'
  reaches : ∀ x, disk.Reaches home dir "extracted" x → disk'.Reaches home dir "extracted" x
  target : ∀ x, (∀ name ∈ names, x ≠ stagingName name processId) →
    disk.IsDir (targetAt home x) → disk'.IsDir (targetAt home x)
  device : ∀ x, disk.get? (markerAt home x) ≠ some .device →
    disk'.get? (markerAt home x) ≠ some .device
  tree : ∀ x ∉ names, (∀ name ∈ names, x ≠ stagingName name processId) →
    disk'.tree (targetAt home x) = disk.tree (targetAt home x)
  marker : ∀ x ∉ names, disk'.get? (markerAt home x) = disk.get? (markerAt home x)

section

variable {dir : Path} {processId : Nat} {names names' : List String} {disk disk' disk'' : Disk}

/-- Where nothing happens, everything is kept. -/
theorem Onward.refl (hs : ∀ x, Plain dir home x disk) (names : List String) :
    Onward dir home processId names disk disk :=
  ⟨hs, fun _ h => h, fun _ _ h => h, fun _ h => h, fun _ _ _ => rfl, fun _ _ => rfl⟩

/-- What two runs in a row keep, given that each keeps it, with the names of both. -/
theorem Onward.trans (h : Onward dir home processId names disk disk')
    (h' : Onward dir home processId names' disk' disk'') :
    Onward dir home processId (names ++ names') disk disk'' := by
  have hleft {P : String → Prop} (hP : ∀ name ∈ names ++ names', P name) : ∀ name ∈ names, P name :=
    fun name hname => hP name (List.mem_append_left _ hname)
  have hright {P : String → Prop} (hP : ∀ name ∈ names ++ names', P name) :
      ∀ name ∈ names', P name := fun name hname => hP name (List.mem_append_right _ hname)
  refine ⟨h'.plain, fun x hx => h'.reaches x (h.reaches x hx), fun x hx hd =>
    h'.target x (hright hx) (h.target x (hleft hx) hd), fun x hx => h'.device x (h.device x hx),
    fun x hx hapart => ?_, fun x hx => ?_⟩
  · rw [List.mem_append, not_or] at hx
    exact (h'.tree x hx.2 (hright hapart)).trans (h.tree x hx.1 (hleft hapart))
  · rw [List.mem_append, not_or] at hx
    exact (h'.marker x hx.2).trans (h.marker x hx.1)

/-- **Steps on one tarball** keep what is known of the others, and take nothing back of its own: by
induction on the steps, each of which is a change for that tarball. -/
theorem Onward.of_steps {name : String} {s s' : Shared}
    (h : ReflTransGen (Step dir home name processId) s s')
    (hs : ∀ x, Plain dir home x s.machine.disk) :
    Onward dir home processId [name] s.machine.disk s'.machine.disk := by
  have hne {x : String} (hx : x ∉ [name]) : x ≠ name := fun heq =>
    hx (List.mem_singleton.2 heq)
  refine ⟨fun x => steps_plain h (hs x), fun x => steps_reaches h, fun x hapart hd => ?_,
    fun x => steps_ne_device h, fun x hx hapart => ?_, fun x hx => steps_marker h (hne hx)⟩
  · by_cases heq : x = name
    · subst heq
      exact steps_keep (K := fun s => s.machine.disk.IsDir (targetAt home x))
        (fun _ _ hstep hd => hstep.change.target_isDir hd) h hd
    · exact hd.of_tree (steps_tree h heq (hapart name (List.mem_singleton_self _)))
  · exact steps_tree h (hne hx) (hapart name (List.mem_singleton_self _))

/-- **A target that is there stays there,** as far as this can be seen by a path, whichever tarballs
were made sure of in between. -/
theorem Onward.kind?_target (h : Onward cache.dir home cache.processId names disk disk')
    (hs : ∀ x, Plain cache.dir home x disk) {x : String} (hx : isEntryName x = true)
    (hapart : ∀ name ∈ names, x ≠ stagingName name cache.processId)
    (hkind : disk.kind? (cache.target x) = some .dir) :
    disk'.kind? (cache.target x) = some .dir := by
  obtain ⟨hreaches, hdir⟩ := ((hs x).kind?_target hx).1 hkind
  exact ((h.plain x).kind?_target hx).2 ⟨h.reaches x hreaches, h.target x hapart hdir⟩

/-- **Whether a target is missing** does not change as long as no tarball of its name was made sure
of. Hence the calls for a tarball can be told in advance. -/
theorem Onward.missing_iff (h : Onward cache.dir home cache.processId names disk disk')
    (hs : ∀ x, Plain cache.dir home x disk) (hrooted : disk.Rooted) {x : String}
    (hx : isEntryName x = true) (hnew : x ∉ names)
    (hapart : ∀ name ∈ names, x ≠ stagingName name cache.processId) :
    disk'.kind? (cache.target x) = some .dir ↔ disk.kind? (cache.target x) = some .dir := by
  refine ⟨fun hkind => ?_, h.kind?_target hs hx hapart⟩
  obtain ⟨hreaches, hdir⟩ := ((h.plain x).kind?_target hx).1 hkind
  by_contra hmissing
  exact not_isDir_of_missing hx (hs x) hrooted hmissing hreaches
    (hdir.of_tree (h.tree x hnew hapart).symm)

end

variable (technology settings) in
/-- Making sure of one tarball keeps what is known of the others, whether it succeeds or fails. -/
theorem onward_ensureExtracted (htool : tool.Confined)
    (hs : ∀ x, Plain cache.dir home x machine.disk) (tarball : Tarball) :
    Onward cache.dir home cache.processId [tarball.path] machine.disk
      ((cache.ensureExtracted technology settings tarball).run tool machine).2.disk := by
  cases hname : isEntryName tarball.path with
  | false =>
      rw [run_ensureExtracted_invalid cache tool machine technology settings tarball hname]
      exact .refl hs _
  | true =>
      obtain ⟨returned, hsteps, -⟩ :=
        ensureExtracted_alone technology settings tarball htool hname (hs tarball.path)
      exact Onward.of_steps hsteps hs

variable (technology settings) in
/-- Making sure of several tarballs keeps what is known of all others, wherever it stops. -/
theorem onward_ensureEach (htool : tool.Confined) (hs : ∀ x, Plain cache.dir home x machine.disk)
    (tarballs : List Tarball) :
    Onward cache.dir home cache.processId (tarballs.map (·.path)) machine.disk
      ((cache.ensureEach technology settings tarballs).run tool machine).2.disk := by
  induction tarballs generalizing machine with
  | nil => exact .refl hs _
  | cons tarball tarballs ih =>
      have hfirst := onward_ensureExtracted technology settings htool hs tarball
      rw [ensureEach, Action.run_bind, List.map_cons, ← List.singleton_append]
      cases hrun : (cache.ensureExtracted technology settings tarball).run tool machine with
      | mk result machine' =>
          rw [hrun] at hfirst
          cases result with
          | error error => exact hfirst.trans (.refl hfirst.plain _)
          | ok target => exact hfirst.trans (ih hfirst.plain)

/-! ### The calls of a whole run -/

/-- The first tarball of each name, in order. -/
def firsts (tarballs : List Tarball) : List Tarball :=
  tarballs.foldl (fun firsts tarball =>
    if tarball.path ∈ firsts.map (·.path) then firsts else firsts ++ [tarball]) []

/-- Another tarball is the first of its name, unless there is one before it. -/
theorem firsts_concat (tarballs : List Tarball) (tarball : Tarball) :
    firsts (tarballs ++ [tarball]) =
      if tarball.path ∈ (firsts tarballs).map (·.path) then firsts tarballs
      else firsts tarballs ++ [tarball] := List.foldl_append ..

/-- There is a first tarball of every name, and of no other. -/
theorem mem_firsts {tarballs : List Tarball} {name : String} :
    name ∈ (firsts tarballs).map (·.path) ↔ name ∈ tarballs.map (·.path) := by
  induction tarballs using List.reverseRecOn with
  | nil => exact Iff.rfl
  | append_singleton tarballs tarball ih =>
      rw [firsts_concat, List.map_append, List.mem_append, ← ih]
      split_ifs with hold
      · refine ⟨Or.inl, fun h => h.elim id fun hname => ?_⟩
        obtain rfl := List.mem_singleton.1 hname
        exact hold
      · rw [List.map_append, List.mem_append]

/-- The first tarballs of their names are among the tarballs. -/
theorem of_mem_firsts {tarballs : List Tarball} :
    ∀ tarball ∈ firsts tarballs, tarball ∈ tarballs := by
  induction tarballs using List.reverseRecOn with
  | nil => exact fun _ => id
  | append_singleton tarballs last ih =>
      intro tarball hmem
      rw [firsts_concat] at hmem
      split_ifs at hmem
      · exact List.mem_append_left _ (ih tarball hmem)
      · obtain hmem | hmem := List.mem_append.1 hmem
        · exact List.mem_append_left _ (ih tarball hmem)
        · exact List.mem_append_right _ hmem

/-- Each name has one first tarball. -/
theorem nodup_firsts (tarballs : List Tarball) : ((firsts tarballs).map (·.path)).Nodup := by
  induction tarballs using List.reverseRecOn with
  | nil => exact List.nodup_nil
  | append_singleton tarballs tarball ih =>
      rw [firsts_concat]
      split_ifs with hold
      · exact ih
      · rw [List.map_append]
        exact List.nodup_append.2 ⟨ih, List.pairwise_singleton .., by simpa using hold⟩

/-- **The calls for tarballs,** one after the other, as they are wanted by a disk: the first tarball
of a name is the one that counts. -/
def callsForAll (cache : Cache) (technology : Technology) (settings : Settings) (disk : Disk)
    (tarballs : List Tarball) : List ToolCall :=
  (firsts tarballs).flatMap (cache.callsFor technology settings disk)

/-- **The names of tarballs whose targets are missing** on a disk, each once, in the order in which
they come up first. -/
def missingNames (cache : Cache) (disk : Disk) (tarballs : List Tarball) : List String :=
  ((firsts tarballs).map (·.path)).filter (cache.stateOn · disk = .missing)

/-- The missing names are those of tarballs that are missing. -/
theorem mem_missingNames {disk : Disk} {tarballs : List Tarball} {name : String} :
    name ∈ cache.missingNames disk tarballs ↔
      name ∈ tarballs.map (·.path) ∧ cache.stateOn name disk = .missing := by
  rw [missingNames, List.mem_filter, mem_firsts, decide_eq_true_iff]

/-- Each missing name comes up once. -/
theorem nodup_missingNames (disk : Disk) (tarballs : List Tarball) :
    (cache.missingNames disk tarballs).Nodup := (nodup_firsts tarballs).filter _

/-- **Each missing name is extracted once,** if all base directories are known. Tarballs of one name
share a target, so the first of them is the one that is unpacked. -/
theorem extracted_callsForAll {disk : Disk} {tarballs : List Tarball}
    (hbase : ∀ t ∈ tarballs, ∃ base, technology.baseDir settings t.baseVar = .ok base) :
    (cache.callsForAll technology settings disk tarballs).filterMap ToolCall.extractsInto? =
      (cache.missingNames disk tarballs).map cache.staging := by
  have hfirsts : ∀ t ∈ firsts tarballs,
      ∃ base, technology.baseDir settings t.baseVar = .ok base := fun t ht =>
    hbase t (of_mem_firsts t ht)
  rw [callsForAll, missingNames]
  generalize firsts tarballs = firsts at hfirsts
  induction firsts with
  | nil => rfl
  | cons first firsts ih =>
      obtain ⟨⟨base, hfirst⟩, hrest⟩ := List.forall_mem_cons.1 hfirsts
      rw [List.flatMap_cons, List.filterMap_append, ih hrest, List.map_cons, callsFor, hfirst]
      cases hstate : cache.stateOn first.path disk with
      | missing =>
          rw [List.filter_cons_of_pos (by simp [hstate])]
          rfl
      | incomplete | complete =>
          rw [List.filter_cons_of_neg (by simp [hstate])]
          rfl

/-- Another tarball needs the calls for it, unless one of its name comes before it. -/
theorem callsForAll_concat (disk : Disk) (tarballs : List Tarball) (tarball : Tarball) :
    cache.callsForAll technology settings disk (tarballs ++ [tarball]) =
      cache.callsForAll technology settings disk tarballs ++
        if tarball.path ∈ tarballs.map (·.path) then []
        else cache.callsFor technology settings disk tarball := by
  simp only [callsForAll, firsts_concat, mem_firsts]
  split_ifs
  · rw [List.append_nil]
  · rw [List.flatMap_append, List.flatMap_singleton]

/-- Making sure of one tarball more comes after the others. -/
theorem ensureEach_concat (tarballs : List Tarball) (tarball : Tarball) :
    cache.ensureEach technology settings (tarballs ++ [tarball]) =
      cache.ensureEach technology settings tarballs >>= fun _ =>
        cache.ensureExtracted technology settings tarball >>= fun _ => return := by
  induction tarballs with
  | nil => rfl
  | cons first tarballs ih => rw [List.cons_append, ensureEach, ih, ensureEach, Action.bind_assoc]

/-- **A run that fails** fails at one tarball, with the error of that one, after those before it
were made sure of. Those after it are never reached. -/
theorem exists_of_ensureEach_error {tarballs : List Tarball} {error : Error}
    (h : ((cache.ensureEach technology settings tarballs).run tool machine).1 = .error error) :
    ∃ before tarball after reached, tarballs = before ++ tarball :: after ∧
      (cache.ensureEach technology settings before).run tool machine = (.ok (), reached) ∧
      (cache.ensureExtracted technology settings tarball).run tool reached =
        (.error error, ((cache.ensureEach technology settings tarballs).run tool machine).2) := by
  induction tarballs generalizing machine with
  | nil => exact absurd h (by simp [ensureEach])
  | cons first tarballs ih =>
      rw [ensureEach, Action.run_bind] at h ⊢
      cases hrun : (cache.ensureExtracted technology settings first).run tool machine with
      | mk result machine' =>
          rw [hrun] at h
          cases result with
          | error error' =>
              obtain rfl := Except.error.inj h
              exact ⟨[], first, tarballs, machine, rfl, rfl, hrun⟩
          | ok target =>
              obtain ⟨before, tarball, after, reached, rfl, hbefore, hfails⟩ := ih h
              refine ⟨first :: before, tarball, after, reached, rfl, ?_, hfails⟩
              rw [ensureEach, Action.run_bind, hrun]
              exact hbefore

section

variable (htool : tool.Confined) (hs : ∀ x, Plain cache.dir home x machine.disk)
  (hrooted : machine.disk.Rooted)

include htool hs hrooted

/-- **The next tarball** after some that were made sure of makes the calls that its state at the
start wants, and none if there was one of its name among them. -/
theorem makes_next {before : List Tarball} {tarball : Tarball} {reached : Machine}
    (hapart : ∀ t ∈ before ++ [tarball], ∀ t' ∈ before ++ [tarball],
      t.path ≠ stagingName t'.path cache.processId)
    (hbefore : (cache.ensureEach technology settings before).run tool machine =
      (.ok (), reached)) :
    reached.Makes
      (if tarball.path ∈ before.map (·.path) then []
        else cache.callsFor technology settings machine.disk tarball)
      ((cache.ensureExtracted technology settings tarball).run tool reached) := by
  cases hname : isEntryName tarball.path with
  | false =>
      rw [run_ensureExtracted_invalid cache tool reached technology settings tarball hname]
      exact Machine.makes_of_error rfl rfl
  | true =>
      have hmem {t : Tarball} (ht : t ∈ before) : t ∈ before ++ [tarball] :=
        List.mem_append_left _ ht
      have hlast : tarball ∈ before ++ [tarball] :=
        List.mem_append_right _ (List.mem_singleton_self _)
      have hcalls : cache.callsFor technology settings reached.disk tarball =
          if tarball.path ∈ before.map (·.path) then []
          else cache.callsFor technology settings machine.disk tarball := by
        split_ifs with hold
        · obtain ⟨t, ht, hpath⟩ := List.mem_map.1 hold
          have hsettled := (@settled_of_ensureEach _ _ _ machine technology settings _ htool
            (fun t ht t' ht' => hapart t (hmem ht) t' (hmem ht')) hs (by rw [hbefore]) t ht).1
          rw [hbefore, hpath] at hsettled
          have hkind := (hsettled.plain.kind?_target hname).2 ⟨hsettled.reaches, hsettled.target⟩
          rw [callsFor, stateOn, if_pos hkind]
          split_ifs <;> rfl
        · have honward := @onward_ensureEach tool machine _ _ technology settings htool hs before
          rw [hbefore] at honward
          have hiff := honward.missing_iff hs hrooted hname hold fun name hmem' => by
            obtain ⟨t, ht, rfl⟩ := List.mem_map.1 hmem'
            exact hapart tarball hlast t (hmem ht)
          rw [callsFor, callsFor, stateOn, stateOn]
          simp only [hiff]
          split_ifs <;> rfl
      rw [← hcalls]
      exact makes_ensureExtracted htool tarball

variable (technology settings) in
/-- **The calls of a run** over tarballs are told from the disk that it starts from, by induction on
the tarballs from the last one on, since what comes first decides for those behind it. -/
theorem makes_ensureEach (tarballs : List Tarball)
    (hapart : ∀ t ∈ tarballs, ∀ t' ∈ tarballs, t.path ≠ stagingName t'.path cache.processId) :
    machine.Makes (cache.callsForAll technology settings machine.disk tarballs)
      ((cache.ensureEach technology settings tarballs).run tool machine) := by
  induction tarballs using List.reverseRecOn with
  | nil => exact Machine.makes_of_direct (Action.asks_pure ()) tool machine
  | append_singleton before tarball ih =>
      have hfirst := ih fun t ht t' ht' =>
        hapart t (List.mem_append_left _ ht) t' (List.mem_append_left _ ht')
      rw [callsForAll_concat, ensureEach_concat]
      refine hfirst.bind fun _ reached hbefore => ?_
      have hlast := (makes_next htool hs hrooted hapart hbefore).bind fun _ machine' _ =>
        Machine.makes_of_direct (Action.asks_pure ()) tool machine'
      rwa [List.append_nil] at hlast

end

/-- A settled tarball is seen to be complete, unless its marker is a device. -/
theorem Settled.state {tarball : Tarball} (h : Settled cache.dir home tarball.path machine.disk)
    (hdevice : machine.disk.get? (markerAt home tarball.path) ≠ some .device) :
    (cache.state tarball).run tool machine = (.ok .complete, machine) := by
  rw [run_state h.isName, stateOn_eq_complete
    ((h.plain.kind?_target h.isName).2 ⟨h.reaches, h.target⟩)
    ((h.plain.kind?_marker h.isName).2 ⟨h.markable, h.marker.resolve_right hdevice⟩)]

section

variable {before : List Tarball} {tarball : Tarball} {reached : Machine}
  (htool : tool.Confined) (hs : ∀ x, Plain cache.dir home x machine.disk)
  (hapart : ∀ t ∈ before ++ [tarball], ∀ t' ∈ before ++ [tarball],
    t.path ≠ stagingName t'.path cache.processId)
  (hbefore : (cache.ensureEach technology settings before).run tool machine = (.ok (), reached))

include htool hs hbefore

/-- After the next tarball, other names are as they were at the start. -/
theorem onward_next :
    Onward cache.dir home cache.processId ((before ++ [tarball]).map (·.path)) machine.disk
      ((cache.ensureExtracted technology settings tarball).run tool reached).2.disk := by
  have hreached := @onward_ensureEach tool machine _ _ technology settings htool hs before
  rw [hbefore] at hreached
  rw [List.map_append]
  exact hreached.trans (onward_ensureExtracted technology settings htool hreached.plain tarball)

include hapart

/-- After the next tarball, those before it are still settled. -/
theorem settled_next {t : Tarball} (ht : t ∈ before) :
    Settled cache.dir home t.path
      ((cache.ensureExtracted technology settings tarball).run tool reached).2.disk := by
  have hmem {x : Tarball} (hx : x ∈ before) : x ∈ before ++ [tarball] := List.mem_append_left _ hx
  have hreached := @onward_ensureEach tool machine _ _ technology settings htool hs before
  have hsettled := (@settled_of_ensureEach _ _ _ machine technology settings _ htool
    (fun x hx x' hx' => hapart x (hmem hx) x' (hmem hx')) hs (by rw [hbefore]) t ht).1
  rw [hbefore] at hreached hsettled
  exact hsettled.ensureExtracted technology settings tarball htool (hreached.plain tarball.path)
    (hapart t (hmem ht) tarball (List.mem_append_right _ (List.mem_singleton_self tarball)))

/-- After the next tarball, all calls for those before it were made, and some of its own. -/
theorem calls_next (hrooted : machine.disk.Rooted) :
    ∃ made, ((cache.ensureExtracted technology settings tarball).run tool reached).2.calls =
        machine.calls ++ made ∧
      cache.callsForAll technology settings machine.disk before <+: made ∧
      made <+: cache.callsForAll technology settings machine.disk (before ++ [tarball]) := by
  have hmem {x : Tarball} (hx : x ∈ before) : x ∈ before ++ [tarball] := List.mem_append_left _ hx
  have hdone : reached.calls =
      machine.calls ++ cache.callsForAll technology settings machine.disk before := by
    have hmakes := makes_ensureEach technology settings htool hs hrooted before fun x hx x' hx' =>
      hapart x (hmem hx) x' (hmem hx')
    rw [hbefore] at hmakes
    exact hmakes.all () rfl
  obtain ⟨⟨made, hmade, hcalls⟩, -⟩ := makes_next htool hs hrooted hapart hbefore
  refine ⟨_ ++ made, ?_, List.prefix_append .., ?_⟩
  · rw [hcalls, hdone, List.append_assoc]
  · rw [callsForAll_concat]
    exact (List.prefix_append_right_inj _).2 hmade

end

/-- A call for a tarball is made because the tarball is missing, and for its staging directory. -/
theorem of_mem_callsFor {disk : Disk} {tarball : Tarball} {call : ToolCall}
    (h : call ∈ cache.callsFor technology settings disk tarball) :
    cache.stateOn tarball.path disk = .missing ∧ call.dest = cache.staging tarball.path := by
  unfold callsFor at h
  split at h
  next hstate hbase =>
    refine ⟨hstate, ?_⟩
    obtain rfl | rfl := List.mem_pair.1 h <;> rfl
  · cases h

/-- **Only what is missing is unpacked,** whatever becomes of the run: every call is for a tarball
whose target is missing on the disk that the run starts from. -/
theorem calls_of_missing (htool : tool.Confined) (hs : ∀ x, Plain cache.dir home x machine.disk)
    (tarballs : List Tarball)
    (hapart : ∀ t ∈ tarballs, ∀ t' ∈ tarballs, t.path ≠ stagingName t'.path cache.processId) :
    ∃ made, ((cache.ensureEach technology settings tarballs).run tool machine).2.calls =
        machine.calls ++ made ∧
      ∀ call ∈ made, ∃ t ∈ tarballs, isEntryName t.path = true ∧
        cache.stateOn t.path machine.disk = .missing ∧ call.dest = cache.staging t.path := by
  induction tarballs generalizing machine with
  | nil => exact ⟨[], (List.append_nil _).symm, nofun⟩
  | cons tarball tarballs ih =>
      rw [ensureEach, Action.run_bind]
      cases hname : isEntryName tarball.path with
      | false =>
          rw [run_ensureExtracted_invalid cache tool machine technology settings tarball hname]
          exact ⟨[], (List.append_nil _).symm, nofun⟩
      | true =>
          obtain ⟨⟨made, hmade, hcalls⟩, -⟩ :=
            @makes_ensureExtracted tool machine cache technology settings htool tarball
          have honward := onward_ensureExtracted technology settings htool hs tarball
          have hfirst : ∀ call ∈ made, ∃ t ∈ tarball :: tarballs, isEntryName t.path = true ∧
              cache.stateOn t.path machine.disk = .missing ∧
              call.dest = cache.staging t.path := fun call hcall =>
            ⟨tarball, List.mem_cons_self .., hname, of_mem_callsFor (hmade.subset hcall)⟩
          cases hrun : (cache.ensureExtracted technology settings tarball).run tool machine with
          | mk result machine' =>
              rw [hrun] at hcalls honward
              cases result with
              | error error => exact ⟨made, hcalls, hfirst⟩
              | ok target =>
                  obtain ⟨more, hmore, hrest⟩ := ih honward.plain fun t ht t' ht' =>
                    hapart t (List.mem_cons_of_mem _ ht) t' (List.mem_cons_of_mem _ ht')
                  refine ⟨made ++ more, by rw [hmore, hcalls, List.append_assoc],
                    fun call hcall => ?_⟩
                  obtain hcall | hcall := List.mem_append.1 hcall
                  · exact hfirst call hcall
                  obtain ⟨t, ht, hvalid, hmissing, hdest⟩ := hrest call hcall
                  refine ⟨t, List.mem_cons_of_mem _ ht, hvalid, ?_, hdest⟩
                  -- A target that is there at the start is still there when its turn comes.
                  by_contra hthere
                  have hkind : machine.disk.kind? (cache.target t.path) = some .dir := by
                    by_contra hnot
                    exact hthere (if_neg hnot)
                  have hstaged : ∀ name ∈ [tarball.path],
                      t.path ≠ stagingName name cache.processId := by
                    intro name hmem
                    obtain rfl := List.mem_singleton.1 hmem
                    exact hapart t (List.mem_cons_of_mem _ ht) tarball (List.mem_cons_self ..)
                  have hkept := honward.kind?_target hs hvalid hstaged hkind
                  rw [stateOn, if_pos hkept] at hmissing
                  split_ifs at hmissing

section

variable (htool : tool.Confined) (hs : ∀ name, Plain cache.dir home name machine.disk)
  (hapart : ∀ t ∈ technology.tarballs, ∀ t' ∈ technology.tarballs,
    t.path ≠ stagingName t'.path cache.processId)

include htool hs hapart

/-- **Another run,** with any tool and settings, makes calls only for tarballs that the first one
has left missing. -/
theorem calls_again {tool' : Tool} (settings' : Settings) (htool' : tool'.Confined) :
    let left := ((cache.extractAll technology settings).run tool machine).2
    ∃ again, ((cache.extractAll technology settings').run tool' left).2.calls =
        left.calls ++ again ∧
      ∀ call ∈ again, ∃ t' ∈ technology.tarballs,
        cache.stateOn t'.path left.disk = .missing ∧ call.dest = cache.staging t'.path := by
  intro left
  have honward : Onward _ _ _ _ machine.disk left.disk :=
    onward_ensureEach technology settings htool hs technology.tarballs
  obtain ⟨again, hagain, hwanted⟩ := @calls_of_missing tool' left cache home technology
    settings' htool' honward.plain technology.tarballs hapart
  refine ⟨again, hagain, fun call hcall => ?_⟩
  obtain ⟨t', ht', -, hmissing, hdest⟩ := hwanted call hcall
  exact ⟨t', ht', hmissing, hdest⟩

variable (hrooted : machine.disk.Rooted)

include hrooted

/-- **A run that succeeds** has made sure of every tarball, and has made the calls for those that
were missing, in the order of the document and with nothing in between. -/
theorem extractAll_of_ok
    (hok : ((cache.extractAll technology settings).run tool machine).1 = .ok ()) :
    let outcome := (cache.extractAll technology settings).run tool machine
    let wanted := cache.callsForAll technology settings machine.disk technology.tarballs
    (∀ t ∈ technology.tarballs, (∃ base, technology.baseDir settings t.baseVar = .ok base) ∧
      (machine.disk.get? (markerAt home t.path) ≠ some .device →
        (cache.state t).run tool outcome.2 = (.ok .complete, outcome.2))) ∧
    outcome.2.calls = machine.calls ++ wanted ∧
    wanted.filterMap ToolCall.extractsInto? =
      (cache.missingNames machine.disk technology.tarballs).map cache.staging := by
  intro outcome wanted
  have honward : Onward _ _ _ _ machine.disk outcome.2.disk :=
    onward_ensureEach technology settings htool hs technology.tarballs
  have hsettled := settled_of_ensureEach htool hapart hs hok
  have hmakes := makes_ensureEach technology settings htool hs hrooted technology.tarballs hapart
  refine ⟨fun t ht => ⟨(hsettled t ht).2, fun hdevice => ?_⟩, hmakes.all () hok,
    extracted_callsForAll fun t ht => (hsettled t ht).2⟩
  exact (hsettled t ht).1.state (honward.device _ hdevice)

/-- **A run that fails** does so at one tarball. Those before it were made sure of, and those that
come only later were left alone. Its calls may end with some of those for the tarball that failed.
-/
theorem extractAll_of_error {error : Error}
    (herror : ((cache.extractAll technology settings).run tool machine).1 = .error error) :
    let outcome := (cache.extractAll technology settings).run tool machine
    ∃ before t after reached made, technology.tarballs = before ++ t :: after ∧
      (cache.ensureEach technology settings before).run tool machine = (.ok (), reached) ∧
      (cache.ensureExtracted technology settings t).run tool reached = (.error error, outcome.2) ∧
      (∀ t' ∈ before, machine.disk.get? (markerAt home t'.path) ≠ some .device →
        (cache.state t').run tool outcome.2 = (.ok .complete, outcome.2)) ∧
      outcome.2.calls = machine.calls ++ made ∧
      cache.callsForAll technology settings machine.disk before <+: made ∧
      made <+: cache.callsForAll technology settings machine.disk (before ++ [t]) ∧
      ∀ t' ∈ after, t'.path ∉ (before ++ [t]).map (·.path) →
        outcome.2.disk.tree (targetAt home t'.path) = machine.disk.tree (targetAt home t'.path) ∧
        outcome.2.disk.get? (markerAt home t'.path) =
          machine.disk.get? (markerAt home t'.path) := by
  intro outcome
  have honward : Onward _ _ _ _ machine.disk outcome.2.disk :=
    onward_ensureEach technology settings htool hs technology.tarballs
  obtain ⟨before, t, after, reached, hsplit, hbefore, hfails⟩ := exists_of_ensureEach_error herror
  have hmem {x : Tarball} (hx : x ∈ before ++ [t]) : x ∈ technology.tarballs := by
    rw [hsplit, ← List.singleton_append, ← List.append_assoc]
    exact List.mem_append_left _ hx
  have hafter {x : Tarball} (hx : x ∈ after) : x ∈ technology.tarballs := by
    rw [hsplit]
    exact List.mem_append_right _ (List.mem_cons_of_mem _ hx)
  have hapart' : ∀ x ∈ before ++ [t], ∀ x' ∈ before ++ [t],
      x.path ≠ stagingName x'.path cache.processId := fun x hx x' hx' =>
    hapart x (hmem hx) x' (hmem hx')
  -- Whatever comes after the tarball that fails is not reached.
  have hlast : ((cache.ensureExtracted technology settings t).run tool reached).2 = outcome.2 :=
    congrArg Prod.snd hfails
  have hfinal : Onward cache.dir home cache.processId ((before ++ [t]).map (·.path)) machine.disk
      ((cache.ensureExtracted technology settings t).run tool reached).2.disk :=
    onward_next htool hs hbefore
  obtain ⟨made, hcalls, hbegun, hmade⟩ := calls_next htool hs hapart' hbefore hrooted
  have hsettled {t' : Tarball} (ht' : t' ∈ before) := settled_next htool hs hapart' hbefore ht'
  rw [hlast] at hfinal hcalls hsettled
  refine ⟨before, t, after, reached, made, hsplit, hbefore, hfails, fun t' ht' hdevice => ?_,
    hcalls, hbegun, hmade, fun t' ht' hnew => ⟨hfinal.tree _ hnew fun name hname => ?_,
    hfinal.marker _ hnew⟩⟩
  · exact (hsettled ht').state (honward.device _ hdevice)
  · obtain ⟨x, hx, rfl⟩ := List.mem_map.1 hname
    exact hapart t' (hafter ht') x (hmem hx)

end

/-- **Unpacking all tarballs goes on where it stopped,** and does nothing twice. The cache is a
directory without symbolic links, in any state, the tool changes only what is in the directory it is
called on, and no tarball is named like the staging directory of one. If a run succeeds, then:

* every tarball has a base directory and is complete, unless its marker is a device;
* its calls are those for the first tarball of each name, in order, as far as the target of the name
  was missing at the start: one to extract the archive, and one to grant access. So each missing
  name is extracted once, and nothing else is.

If it fails, then at one tarball, with the error of that one. Those before it have succeeded, and:

* they are complete, unless a marker is a device;
* the calls are those for them, and then the first ones of those for the tarball that fails, which
  has some only if it is the first of its name and was missing at the start;
* the trees and markers of names that come only later are as they were;
* another run, with any tool and settings, makes calls only for tarballs that are missing by now. -/
theorem extractAll_resumes (htool : tool.Confined)
    (hs : ∀ name, Plain cache.dir home name machine.disk) (hrooted : machine.disk.Rooted)
    (hapart : ∀ t ∈ technology.tarballs, ∀ t' ∈ technology.tarballs,
      t.path ≠ stagingName t'.path cache.processId) :
    let outcome := (cache.extractAll technology settings).run tool machine
    let wanted := cache.callsForAll technology settings machine.disk technology.tarballs
    let missing := cache.missingNames machine.disk technology.tarballs
    (outcome.1 = .ok () →
      (∀ t ∈ technology.tarballs, (∃ base, technology.baseDir settings t.baseVar = .ok base) ∧
        (machine.disk.get? (markerAt home t.path) ≠ some .device →
          (cache.state t).run tool outcome.2 = (.ok .complete, outcome.2))) ∧
      outcome.2.calls = machine.calls ++ wanted ∧
      wanted.filterMap ToolCall.extractsInto? = missing.map cache.staging ∧
      missing.Nodup ∧
      ∀ name, name ∈ missing ↔ name ∈ technology.tarballs.map (·.path) ∧
        cache.stateOn name machine.disk = .missing) ∧
    ∀ error, outcome.1 = .error error →
      ∃ before t after reached made, technology.tarballs = before ++ t :: after ∧
        (cache.ensureEach technology settings before).run tool machine = (.ok (), reached) ∧
        (cache.ensureExtracted technology settings t).run tool reached =
          (.error error, outcome.2) ∧
        (∀ t' ∈ before, machine.disk.get? (markerAt home t'.path) ≠ some .device →
          (cache.state t').run tool outcome.2 = (.ok .complete, outcome.2)) ∧
        outcome.2.calls = machine.calls ++ made ∧
        cache.callsForAll technology settings machine.disk before <+: made ∧
        made <+: cache.callsForAll technology settings machine.disk (before ++ [t]) ∧
        (∀ t' ∈ after, t'.path ∉ (before ++ [t]).map (·.path) →
          outcome.2.disk.tree (targetAt home t'.path) = machine.disk.tree (targetAt home t'.path) ∧
          outcome.2.disk.get? (markerAt home t'.path) =
            machine.disk.get? (markerAt home t'.path)) ∧
        ∀ (tool' : Tool) (settings' : Settings), tool'.Confined →
          ∃ again, ((cache.extractAll technology settings').run tool' outcome.2).2.calls =
              outcome.2.calls ++ again ∧
            ∀ call ∈ again, ∃ t' ∈ technology.tarballs,
              cache.stateOn t'.path outcome.2.disk = .missing ∧
              call.dest = cache.staging t'.path := by
  intro outcome wanted missing
  refine ⟨fun hok => ?_, fun error herror => ?_⟩
  · obtain ⟨hcomplete, hcalls, hextracted⟩ := extractAll_of_ok htool hs hapart hrooted hok
    exact ⟨hcomplete, hcalls, hextracted, nodup_missingNames _ _, fun _ => mem_missingNames⟩
  · obtain ⟨before, t, after, reached, made, hsplit, hbefore, hfails, hcomplete, hcalls, hbegun,
      hmade, hlater⟩ := extractAll_of_error htool hs hapart hrooted herror
    exact ⟨before, t, after, reached, made, hsplit, hbefore, hfails, hcomplete, hcalls, hbegun,
      hmade, hlater, fun _ settings' htool' => calls_again htool hs hapart settings' htool'⟩

/-- A technology with the tarball `t` twice, then `u` from a directory of its own, then `v`. -/
def threeNames : Technology :=
  ⟨"tech", ⟨"/tech"⟩,
    { tarballs := some [⟨"t", "", none⟩, ⟨"t", "", none⟩, ⟨"u", "U", none⟩, ⟨"v", "", none⟩] }⟩

/-- Settings with the directory of `u`. -/
def located : Settings := .ofPairs [("U", .string "/u")]

/-- A run on a cache with a stale staging directory of `t`. -/
def extractThree (settings : Settings) : Except Error Unit × Machine :=
  (firstCache.extractAll threeNames settings).run (Tool.unpacking "cells") staleCache

/-- With the directory of `u`, a run unpacks each of the three names once. Without it, `t` is there
when the run stops, and another run makes calls for `u` and `v` only. -/
theorem threeNames_resumed :
    ((extractThree located).1 = .ok () ∧
      (∀ t ∈ threeNames.tarballs, (firstCache.state t).run (Tool.unpacking "cells")
        (extractThree located).2 = (.ok .complete, (extractThree located).2)) ∧
      (extractThree located).2.calls =
        [.extract ⟨"/tech/t"⟩ (firstCache.staging "t"), .grantAccess (firstCache.staging "t"),
          .extract ⟨"/u/u"⟩ (firstCache.staging "u"), .grantAccess (firstCache.staging "u"),
          .extract ⟨"/tech/v"⟩ (firstCache.staging "v"), .grantAccess (firstCache.staging "v")]) ∧
    (extractThree {}).1 = .error (.settingNotFound "U" "tech") ∧
    ∃ again, ((firstCache.extractAll threeNames located).run (Tool.unpacking "cells")
        (extractThree {}).2).2.calls = (extractThree {}).2.calls ++ again ∧
      ∀ call ∈ again, call.dest = firstCache.staging "u" ∨ call.dest = firstCache.staging "v" := by
  have hapart : ∀ t ∈ threeNames.tarballs, ∀ t' ∈ threeNames.tarballs,
      t.path ≠ stagingName t'.path firstCache.processId := by decide +kernel
  have hdevice : ∀ t ∈ threeNames.tarballs,
      staleCache.disk.get? (markerAt ["c"] t.path) ≠ some .device := by decide +kernel
  have hdone : (extractThree located).1 = .ok () := eq_ok_of_toOption (by decide +kernel)
  have hstopped : (extractThree {}).1 = .error (.settingNotFound "U" "tech") := by decide +kernel
  have hthere : firstCache.stateOn "t" (extractThree {}).2.disk ≠ .missing := by decide +kernel
  have hcalls : staleCache.calls ++
      firstCache.callsForAll threeNames located staleCache.disk threeNames.tarballs =
        [.extract ⟨"/tech/t"⟩ (firstCache.staging "t"), .grantAccess (firstCache.staging "t"),
          .extract ⟨"/u/u"⟩ (firstCache.staging "u"), .grantAccess (firstCache.staging "u"),
          .extract ⟨"/tech/v"⟩ (firstCache.staging "v"),
          .grantAccess (firstCache.staging "v")] := by
    decide +kernel
  unfold extractThree at hdone hstopped hthere ⊢
  obtain ⟨hsuccess, -⟩ := @extractAll_resumes _ _ _ _ _ located
    (Tool.confined_unpacking "cells") plain_staleCache rooted_staleCache hapart
  obtain ⟨-, hfailure⟩ := @extractAll_resumes _ _ _ _ _ {}
    (Tool.confined_unpacking "cells") plain_staleCache rooted_staleCache hapart
  obtain ⟨hcomplete, hmade, -⟩ := hsuccess hdone
  obtain ⟨_, _, _, _, _, -, -, -, -, -, -, -, -, hresumed⟩ := hfailure _ hstopped
  obtain ⟨again, hagain, hwanted⟩ := hresumed _ located (Tool.confined_unpacking "cells")
  refine ⟨⟨hdone, fun t ht => (hcomplete t ht).2 (hdevice t ht), ?_⟩, hstopped, again, hagain,
    fun call hcall => ?_⟩
  · rw [hmade, hcalls]
  obtain ⟨t, ht, hmissing, hdest⟩ := hwanted call hcall
  obtain rfl | rfl | rfl | rfl : t = ⟨"t", "", none⟩ ∨ t = ⟨"t", "", none⟩ ∨
      t = ⟨"u", "U", none⟩ ∨ t = ⟨"v", "", none⟩ := by
    simpa only [threeNames, Technology.tarballs, Option.getD_some, List.mem_cons,
      List.not_mem_nil, or_false] using ht
  · exact absurd hmissing hthere
  · exact absurd hmissing hthere
  · exact Or.inl hdest
  · exact Or.inr hdest

/-- **A device as a marker** keeps nothing of what is written. A run over the tarball `t` succeeds,
and the tarball is there, but it is not complete. -/
theorem t_extracted_and_incomplete :
    (∀ name, Plain firstCache.dir ["c"] name deviceCache.disk) ∧ deviceCache.disk.Rooted ∧
      (Tool.unpacking "cells").Confined ∧
      (∀ t ∈ oneTarball.tarballs, ∀ t' ∈ oneTarball.tarballs,
        t.path ≠ stagingName t'.path firstCache.processId) ∧
      ((firstCache.extractAll oneTarball {}).run (Tool.unpacking "cells") deviceCache).1 = .ok () ∧
      (⟨"t", "", none⟩ : Tarball) ∈ oneTarball.tarballs ∧
      ((firstCache.state ⟨"t", "", none⟩).run (Tool.unpacking "cells")
        ((firstCache.extractAll oneTarball {}).run (Tool.unpacking "cells") deviceCache).2).1 =
          .ok .incomplete := by
  refine ⟨plain_deviceCache, rooted_deviceCache, Tool.confined_unpacking "cells", ?_⟩
  decide +kernel

end Cache
end ProcessKit
