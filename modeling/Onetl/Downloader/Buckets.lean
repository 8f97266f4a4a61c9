import Onetl.Downloader.Loop

/-!
# The four buckets of `DownloadResult`

Every item `_download_files` finishes lands in exactly one bucket: a call of `_download_file`
either leaves the result alone and stays with the item, or adds the item to one bucket and moves
on (`transferStep_count`). So every run accounts for at most the items `_validate_files` returned,
and a run that returns accounts for each of them once (`result_accounts_every_item`). The buckets
are kept as the lists of what was added to them: an ordered `FileSet` would hold one entry for two
items that share a `local_file`.

That the run returns is another matter. `_download_file` calls `path_exists` before its `try`, and
its `except` block reads `remote_file`, which is unbound when `get_file` raised; either exception
escapes `_download_files` and ends the run, so the items after it are never tried
(`download_file_failure_aborts_run`).
-/

set_option autoImplicit false

namespace Onetl.Downloader

open Onetl.Path

variable {H : Type}

/-- How many entries the four buckets hold. -/
def DownloadResult.count (res : DownloadResult) : Nat :=
  res.successful.length + res.failed.length + res.skipped.length + res.missing.length

/-- The result accounts for the finished items, or the run raised before it finished them all. -/
def Accounted (items : List Item) (s : Machine H) : Prop :=
  s.result.count + s.phase.remaining.length = items.length ∨
    ∃ e, s.phase = .raised e ∧ s.result.count < items.length

namespace RunContext

variable (rc : RunContext H)

/-- **A call of `_download_file` stays with the item and keeps the result, or moves to the next
item with one more bucket entry, or raises and keeps the result.** -/
theorem transferStep_count (s : Machine H) (it : Item) (rest : List Item) (st : Stage) (r : Reply) :
    ((∃ st', (rc.transferStep s it rest st r).phase = .transfer it rest st') ∧
        (rc.transferStep s it rest st r).result = s.result) ∨
      ((rc.transferStep s it rest st r).phase = (rc.nextItem s rest).phase ∧
        (rc.transferStep s it rest st r).result.count = s.result.count + 1) ∨
      ∃ e, (rc.transferStep s it rest st r).phase = .raised e ∧
        (rc.transferStep s it rest st r).result = s.result := by
  cases st <;> cases r <;>
    simp only [transferStep, failItem, succeedItem, afterSave, afterTransfer, checkLocal] <;>
    (repeat' split) <;>
    first
    | exact .inl ⟨⟨_, rfl⟩, by trivial⟩
    | exact .inr (.inr ⟨_, rfl, by trivial⟩)
    | exact .inr (.inl ⟨rc.nextItem_phase _ _ rest, by
        simp only [nextItem_result, DownloadResult.count, List.length_append, List.length_singleton]
        omega⟩)

theorem accounted_step {wb : World H} {items : List Item} {s : Machine H}
    (hl : rc.LoopState wb items s) (h : Accounted items s) (r : Reply) :
    Accounted items (rc.step s r) := by
  rcases hp : s.phase with _ | _ | _ | _ | _ | _ | ⟨it, rest, st⟩ | _ | _ | _
  all_goals have hi := hl.inLoop; simp only [hp, Phase.inLoop, Bool.false_eq_true] at hi
  case transfer =>
    have hc : s.result.count + rest.length + 1 = items.length := by
      rcases h with h | ⟨e, he, -⟩
      · simp only [hp, Phase.remaining, List.length_cons] at h; omega
      · simp [hp] at he
    simp only [step, hp]
    rcases rc.transferStep_count s it rest st r with ⟨⟨st', hq⟩, hr⟩ | ⟨hq, hr⟩ | ⟨e, hq, hr⟩
    · left; rw [hq, hr]; simp only [Phase.remaining, List.length_cons]; omega
    · left; rw [hq, hr, remaining_nextItem]; omega
    · right; exact ⟨e, hq, by rw [hr]; omega⟩
  case removeTemp =>
    rcases h with h | ⟨e, he, -⟩
    · left; cases r <;> simpa [step, hp, Phase.remaining] using h
    · simp [hp] at he
  all_goals rw [rc.step_of_finished s r (by simp [hp, Phase.finished])]; exact h

theorem reaches_accounted {wb : World H} {items : List Item} {s : Machine H}
    (h : rc.Reaches (rc.loopStart wb items) s) : Accounted items s := by
  induction h with
  | refl =>
    left
    rw [loopStart, startTransfer, remaining_nextItem, nextItem_result]
    simp [DownloadResult.count]
  | tail hr hst ih =>
    obtain ⟨r, rfl⟩ := hst
    exact rc.accounted_step (rc.reaches_loopState hr) ih r

/-- **Every item lands in one bucket at most, and in exactly one when the run returns**: the result
never holds more entries than `_validate_files` returned items, and as many when `run` returns. -/
theorem result_accounts_every_item {files : Option FileCollection} {w₀ : World H} {items : List Item}
    (hv : rc.runItems files w₀ = .ok items) {s : Machine H} (h : rc.Reaches (rc.start files w₀) s) :
    s.result.count ≤ items.length ∧ (s.phase = .done → s.result.count = items.length) := by
  rcases rc.reaches_front_or_loopState h with hf | hc | ⟨items', hv', hr, -⟩
  · rw [hf.result]
    refine ⟨by simp [DownloadResult.count], fun hd => ?_⟩
    have ht : (rc.collection files w₀).truthy = false := by simpa [hd, FrontPhase] using hf.phase
    simp [rc.runItems_nil_of_not_truthy hv ht, DownloadResult.count]
  · simp [hc.result, hc.phase, DownloadResult.count]
  · obtain rfl : items' = items := by simpa [hv] using hv'.symm
    rcases rc.reaches_accounted hr with ha | ⟨e, he, ha⟩
    · exact ⟨by omega, fun hd => by simpa [hd, Phase.remaining] using ha⟩
    · exact ⟨ha.le, fun hd => by simp [hd] at he⟩

/-- `run(["a"])` from `/src` to `/local`, run to its end. -/
theorem result_accounts_every_item_src :
    srcToLocalRun.runItems (some (.sized [.str "a"])) remoteA =
        .ok [⟨.ofString "/src/a", .ofString "/local/a", none⟩] ∧
      srcToLocalRun.Reaches (srcToLocalRun.start (some (.sized [.str "a"])) remoteA)
        (srcToLocalRun.downloaderRun (some (.sized [.str "a"])) remoteA (List.replicate 13 .ok)) ∧
      (srcToLocalRun.downloaderRun (some (.sized [.str "a"])) remoteA
          (List.replicate 13 .ok)).result.count ≤ 1 ∧
      ((srcToLocalRun.downloaderRun (some (.sized [.str "a"])) remoteA (List.replicate 13 .ok)).phase = .done →
        (srcToLocalRun.downloaderRun (some (.sized [.str "a"])) remoteA
          (List.replicate 13 .ok)).result.count = 1) :=
  have hv : srcToLocalRun.runItems (some (.sized [.str "a"])) remoteA =
      .ok [⟨.ofString "/src/a", .ofString "/local/a", none⟩] := rfl
  ⟨hv, srcToLocalRun.reaches_run _ _,
    srcToLocalRun.result_accounts_every_item hv (srcToLocalRun.reaches_run _ _)⟩

/-- A file removed by another process between the validation and its transfer is accounted for as
missing, although it was there when the run started. -/
example :
    (srcToLocalRun.downloaderRun (some (.sized [.str "a"])) remoteA
        [.ok, .ok, .ok, .ok, .absent]).result = { missing := [.ofString "/src/a"] } ∧
      (remoteA.remoteAt (.ofString "/src/a")).isSome := by
  decide

/-- A remote holding `/src/a` and `/src/b`, and no local file. -/
def remoteAB : World Unit :=
  ⟨fun _ => none, fun q => if q = .ofString "/src/a" ∨ q = .ofString "/src/b" then some [1] else none,
    none⟩

/-- `run(["a", "b"])` from `/src` to `/local`: when `get_file` of `/src/a` raises in
`_download_file`, or `path_exists` does, the run raises with an empty result; `b` is never tried
and `a` is in no bucket. -/
theorem download_file_failure_aborts_run :
    (srcToLocalRun.downloaderRun (some (.sized [.str "a", .str "b"])) remoteAB
        (List.replicate 7 .ok ++ [.raise])).phase = .raised .unboundRemoteFile ∧
      (srcToLocalRun.downloaderRun (some (.sized [.str "a", .str "b"])) remoteAB
        (List.replicate 7 .ok ++ [.raise])).result = {} ∧
      (srcToLocalRun.downloaderRun (some (.sized [.str "a", .str "b"])) remoteAB
        (List.replicate 6 .ok ++ [.raise])).phase = .raised (.raised .pathExists) ∧
      (srcToLocalRun.downloaderRun (some (.sized [.str "a", .str "b"])) remoteAB
        (List.replicate 6 .ok ++ [.raise])).result = {} := by
  decide

end RunContext

end Onetl.Downloader
