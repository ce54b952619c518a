/-
# Work that stays in the directory of a cache

`StaysIn` follows an action through any run: what it touches are places of one kind, provided that
the disk is as required when it starts, and when it succeeds the disk is as promised to what comes
next. Looking stays anywhere, and actions that stay in the same places do so one after the other.

Making the directory of a cache in a directory that is there stays at the place of the new one, and
leaves a plain cache there (`staysIn_createDirAll`). Making sure of a tarball stays at and below
that place and keeps the cache plain (`staysIn_ensureExtracted`).

The promise is made for a successful end only. When an action fails, nothing comes after it that
would need the promise, but what it has touched until then counts all the same. So the rule for two
actions in a row (`StaysIn.bind`) asks the second one to start from what the first one promises, and
collects the places of both. An action that is put together from known parts stays where the parts
do (`Composed.staysIn`), which is how the commands are covered without following them request by
request.
-/

import ProcessKit.Proofs.Cache.Containment
import ProcessKit.Proofs.Cache.Settled

namespace ProcessKit

open Disk

variable {α β : Type} {tool : Tool} {Good : Place → Prop} {Before : Disk → Prop}

/-- What is quiet touches nothing. -/
theorem Request.Quiet.not_touches {r : Request} (h : r.Quiet) (met : Machine) (p : Place) :
    ¬ met.Touches tool r p := by
  intro htouch
  cases htouch with
  | changed hne =>
      cases r with
      | kind => exact hne rfl
      | read => exact hne rfl
      | log => exact hne rfl
      | print => exact hne rfl
      | _ => exact h.elim
  | worked hpath => exact absurd hpath (by rw [h.workplace?_eq_none]; simp)
  | written => exact h.elim
  | source => exact h.elim
  | target => exact h.elim

namespace Action

/-- **An action stays in some places:** what it touches from a disk as required is among them, and
its success leaves a disk as promised. -/
structure StaysIn (tool : Tool) (Good : Place → Prop) (Before : Disk → Prop) (action : Action α)
    (After : α → Disk → Prop) : Prop where
  touches : ∀ machine : Machine, Before machine.disk → ∀ r met p,
    (r, met) ∈ action.trace tool machine → met.Touches tool r p → Good p
  leaves : ∀ (machine : Machine) value next, Before machine.disk →
    action.run tool machine = (.ok value, next) → After value next.disk

/-- Two actions, one after the other, stay in what each of them stays in: what the first one leaves,
with the value it gives, is what the second one starts from. -/
theorem StaysIn.bind {action : Action α} {f : α → Action β} {Mid : α → Disk → Prop}
    {After : β → Disk → Prop} (h : action.StaysIn tool Good Before Mid)
    (hf : ∀ value, (f value).StaysIn tool Good (Mid value) After) :
    (action >>= f).StaysIn tool Good Before After := by
  constructor
  · intro machine hbefore r met p hmem htouch
    obtain hfirst | ⟨value, next, hrun, hlater⟩ := mem_trace_bind.1 hmem
    · exact h.touches machine hbefore r met p hfirst htouch
    · exact (hf value).touches next (h.leaves machine value next hbefore hrun) r met p hlater htouch
  · intro machine value last hbefore hrun
    rw [run_bind] at hrun
    cases hfirst : action.run tool machine with
    | mk result next =>
        rw [hfirst] at hrun
        cases result with
        | error error => exact absurd (Prod.mk.inj hrun).1 (by simp)
        | ok value' =>
            exact (hf value').leaves next value last (h.leaves machine value' next hbefore hfirst)
              hrun

/-- A failure stays anywhere. -/
theorem staysIn_fail (error : Error) (After : α → Disk → Prop) :
    (Action.fail error : Action α).StaysIn tool Good Before After :=
  ⟨fun _ _ _ _ _ hmem => absurd hmem List.not_mem_nil,
    fun _ _ _ _ hrun => absurd (Prod.mk.inj hrun).1 (by simp)⟩

/-- A value stays anywhere, and promises what is required. -/
theorem staysIn_pure (value : α) {After : α → Disk → Prop}
    (h : ∀ disk, Before disk → After value disk) :
    (pure value : Action α).StaysIn tool Good Before After := by
  refine ⟨fun _ _ _ _ _ hmem => absurd hmem List.not_mem_nil, fun machine value' next hb hrun => ?_⟩
  obtain ⟨hvalue, rfl⟩ := Prod.mk.inj hrun
  exact Except.ok.inj hvalue ▸ h machine.disk hb

/-- **Looking stays anywhere:** a request that is quiet touches no place, and leaves the disk as it
was required to be. -/
theorem staysIn_of_quiet {action : Action α} (h : action.Asks Request.Quiet) :
    action.StaysIn tool Good Before fun _ => Before := by
  constructor
  · intro machine _ r met p hmem htouch
    exact absurd htouch ((h.mem_trace hmem).not_touches met p)
  · intro machine value next hbefore hrun
    have hdisk := (run_quiet h tool machine).1
    rw [hrun] at hdisk
    exact (show next.disk = machine.disk from hdisk) ▸ hbefore

/-- **An action stays where its parts do,** if it only looks besides. By induction on how it is put
together; what holds before a part holds after it. -/
theorem Composed.staysIn {P : Request → Prop} {Part : Action Path → Prop} {action : Action α}
    (h : action.Composed P Part) (hP : ∀ r, P r → r.Quiet)
    (hpart : ∀ part, Part part → part.StaysIn tool Good Before fun _ => Before) :
    action.StaysIn tool Good Before fun _ => Before := by
  induction h with
  | asks h => exact staysIn_of_quiet (h.mono hP)
  | part h => exact hpart _ h
  | bind _ _ ih ihf => exact ih.bind ihf

end Action

namespace Cache

variable {dir : Path} {home p : Place} {name : String}

/-- The own places of a tarball are in the directory of the cache. -/
theorem Owned.inside {processId : Nat} (h : Owned home name processId p) : home <+: p := by
  cases h with
  | staging h => exact (List.prefix_append home _).trans h
  | target h => exact (List.prefix_append home _).trans h
  | _ => exact List.prefix_append home _

/-- **Making sure of a tarball** stays in the directory of the cache, and makes no symbolic link
where a tarball is unpacked and marked. -/
theorem staysIn_ensureExtracted (cache : Cache) (home : Place) (technology : Technology)
    (settings : Settings) (tarball : Tarball) (htool : tool.Confined) :
    (cache.ensureExtracted technology settings tarball).StaysIn tool (home <+: ·)
      (fun disk => ∀ x, Plain cache.dir home x disk)
      fun _ disk => ∀ x, Plain cache.dir home x disk := by
  constructor
  · intro machine hplain r met p hmem htouch
    by_cases hnames : Names tarball.path
    · have hname := isEntryName_iff_names.2 hnames
      exact (ensureExtracted_touches htool hname (hplain tarball.path) hmem htouch).inside
    · rw [(refused_of_not_names hnames).ensureExtractedTrace] at hmem
      exact absurd hmem List.not_mem_nil
  · intro machine value next hplain hrun x
    have hkept := plain_ensureExtracted technology settings tarball htool hplain x
    rw [hrun] at hkept
    exact hkept

/-- The directory of a cache can be made as that of a name: its parent is there, and no symbolic
link is in its place or below. -/
structure Clear (dir : Path) (home : Place) (name : String) (disk : Disk) : Prop where
  leads : disk.LeadsTo dir home
  unlinked : ∀ place, home ++ [name] <+: place → disk.Unlinked place

/-- What becomes of the disk when the directory of a cache is made. -/
theorem Clear.createDirAll {disk : Disk} (h : Clear dir home name disk)
    (hname : isEntryName name = true) :
    ∃ disk', disk.createDirAll (dir.join ⟨name⟩) =
        (decide (disk'.kind? (dir.join ⟨name⟩) = some .dir), disk') ∧
      Clear dir home name disk' ∧ ∀ p, disk'.get? p ≠ disk.get? p → p = home ++ [name] := by
  have hl := h.unlinked _ (List.prefix_refl _)
  obtain ⟨disk', hmade, hd⟩ :=
    h.leads.createDirAll_join hname hl ((dir.join ⟨name⟩).chars.length + 1)
  refine ⟨disk', hmade, ?_⟩
  obtain rfl | ⟨-, rfl, -⟩ := hd
  · exact ⟨h, fun p hne => absurd rfl hne⟩
  · have hbelow : Below home (home ++ [name]) := below_append home name []
    have hset := @get?_set disk _ (ne_nil_of_below hbelow) (.dir .newDir)
    refine ⟨⟨h.leads.congr (.set hbelow _), fun place hplace => ?_⟩, fun p hne => ?_⟩
    · rw [Unlinked, hset]
      split_ifs
      · simp
      · exact h.unlinked place hplace
    · rw [hset] at hne
      by_contra hother
      exact hne (if_neg hother)

/-- A directory of a cache that can be followed is plain. -/
theorem Clear.plain {disk : Disk} (h : Clear dir home name disk) (hname : isEntryName name = true)
    (hmade : disk.kind? (dir.join ⟨name⟩) = some .dir) (x : String) :
    Plain (dir.join ⟨name⟩) (home ++ [name]) x disk := by
  refine plain_of_unlinked ?_ h.unlinked
  rw [kind?, h.leads.find_join hname (h.unlinked _ (List.prefix_refl _))] at hmade
  split_ifs at hmade with hun hlong
  refine h.leads.join hname (Nat.not_lt.1 hlong) ?_
  cases hentry : disk.get? (home ++ [name]) with
  | none =>
      rw [hentry] at hmade
      exact absurd hmade (by simp)
  | some entry =>
      rw [hentry] at hmade
      cases entry with
      | dir mode => exact ⟨mode, hentry⟩
      | _ => exact absurd hmade (by simp)

/-- **Making the directory of a cache** stays there, and leaves a plain cache. What the directory is
made in must be there, since directories further up would be made as well otherwise. -/
theorem staysIn_createDirAll (hname : isEntryName name = true) (context : String) :
    (Action.createDirAll (dir.join ⟨name⟩) context).StaysIn tool (home ++ [name] <+: ·)
      (Clear dir home name) fun _ disk => ∀ x, Plain (dir.join ⟨name⟩) (home ++ [name]) x disk := by
  have hmake : (Action.request (.createDirAll (dir.join ⟨name⟩))).StaysIn tool
      (home ++ [name] <+: ·) (Clear dir home name)
      fun made disk => made = true → ∀ x, Plain (dir.join ⟨name⟩) (home ++ [name]) x disk := by
    constructor
    · intro machine hclear r met p hmem htouch
      obtain ⟨rfl, rfl⟩ := Prod.mk.inj (List.mem_singleton.1 hmem)
      obtain ⟨disk', hmade, -, hplace⟩ := hclear.createDirAll hname
      cases htouch with
      | changed hne =>
          rw [Machine.perform, hmade] at hne
          exact hplace p hne ▸ List.prefix_refl _
      | worked hpath => exact absurd hpath (by simp [Request.workplace?])
    · intro machine made next hclear hrun hok x
      obtain ⟨disk', hmade, hclear', -⟩ := hclear.createDirAll hname
      rw [Action.run_request, Machine.perform, hmade] at hrun
      obtain ⟨hkind, rfl⟩ := Prod.mk.inj hrun
      have hdir := of_decide_eq_true ((Except.ok.inj hkind).trans hok)
      exact hclear'.plain hname hdir x
  refine hmake.bind fun made => ?_
  cases made with
  | true => exact Action.staysIn_pure () fun _ h => h rfl
  | false => exact Action.staysIn_fail _ _

end Cache
end ProcessKit
