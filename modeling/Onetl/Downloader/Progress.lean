import Onetl.Downloader.Machine

/-!
# Every run ends

`run` makes a bounded number of calls. `budget` counts the calls a state can still make: two
checks, two calls per element in `_validate_files`, the cleanup, at most eight calls of
`_download_file` per item and `_remove_temp_dir`. Every call of a state that has neither
returned nor raised lowers it (`budget_step_lt`), so a run given at least `budget` replies has
returned or raised (`run_finished`).
-/

set_option autoImplicit false

namespace Onetl.Downloader

/-- `run` has returned or raised: no call is left. -/
def Phase.finished : Phase → Bool
  | .done | .raised _ => true
  | _ => false

/-- The calls `_download_file` can still make from a stage, this one included. -/
def Stage.budget : Stage → Nat
  | .pathExists => 8
  | .getFile => 7
  | .download _ => 6
  | .unlink => 5
  | .mkdir => 4
  | .move => 3
  | .save => 2
  | .removeSource => 1

theorem Stage.budget_pos (st : Stage) : 0 < st.budget := by
  cases st <;> simp [Stage.budget]

variable {H : Type}

namespace RunContext

variable (rc : RunContext H)

/-- The calls of the loop of `_download_files` over `n` items and of `_remove_temp_dir`. -/
def loopBudget (n : Nat) : Nat := 8 * n + if rc.currentTempDir.isSome then 1 else 0

/-- The calls of `_validate_files` with `k` elements to go and `m` items built, and all after. -/
def validateBudget (k m : Nat) : Nat := 2 * k + 1 + rc.loopBudget (m + k)

/-- The calls after the checks, for the collection passed to `run` (`None`: `view_files()`). -/
def filesBudget (w : World H) : Option FileCollection → Nat
  | none => 1 + rc.validateBudget (rc.viewFiles w).length 0
  | some c => rc.validateBudget c.items.length 0

/-- The calls a state can still make. -/
def budget (s : Machine H) : Nat :=
  match s.phase with
  | .checkConnection f => 2 + rc.filesBudget s.world f
  | .checkSource f => 1 + rc.filesBudget s.world f
  | .listFiles => rc.filesBudget s.world none
  | .probe _ fs acc => 2 + rc.validateBudget fs.length (acc.length + 1)
  | .fetch _ fs acc => 1 + rc.validateBudget fs.length (acc.length + 1)
  | .cleanup items => 1 + rc.loopBudget items.length
  | .transfer _ rest st => st.budget + rc.loopBudget rest.length
  | .removeTemp => 1
  | .done | .raised _ => 0

theorem addItem_length_le (acc : List Item) (it : Item) : (addItem acc it).length ≤ acc.length + 1 := by
  unfold addItem; split <;> simp

theorem validateBudget_mono (k : Nat) {m m' : Nat} (h : m ≤ m') : rc.validateBudget k m ≤ rc.validateBudget k m' := by
  simp only [validateBudget, loopBudget]; omega

/-! ## What each continuation leaves to do -/

variable (s : Machine H)

@[simp] theorem budget_raised (e : Error) : rc.budget { s with phase := .raised e } = 0 := rfl

theorem finish_budget : rc.budget (rc.finish s) = rc.loopBudget 0 := by
  by_cases h : rc.currentTempDir.isSome <;> simp [finish, budget, loopBudget, h]

theorem nextItem_budget (items : List Item) : rc.budget (rc.nextItem s items) = rc.loopBudget items.length := by
  cases items with
  | nil => exact rc.finish_budget s
  | cons it rest => simp only [nextItem, budget, Stage.budget, loopBudget, List.length_cons]; omega

theorem startTransfer_budget (items : List Item) :
    rc.budget (rc.startTransfer s items) = rc.loopBudget items.length :=
  rc.nextItem_budget _ items

theorem afterValidate_budget (items : List Item) :
    rc.budget (rc.afterValidate s items) ≤ 1 + rc.loopBudget items.length := by
  unfold afterValidate; split
  · simp [budget]
  · rw [startTransfer_budget]; omega

theorem validateNext_budget (fs : List FileArg) (acc : List Item) :
    rc.budget (rc.validateNext s fs acc) ≤ rc.validateBudget fs.length acc.length := by
  cases fs with
  | nil => simpa [validateNext, validateBudget] using rc.afterValidate_budget s acc
  | cons f fs =>
    simp only [validateNext]
    split
    · simp
    · simp only [budget, validateBudget, loopBudget, List.length_cons]; omega

/-- Past one element, `_validate_files` has the budget of one element fewer and one item more. -/
theorem validateNext_addItem_budget (it : Item) (fs : List FileArg) (acc : List Item) :
    rc.budget (rc.validateNext s fs (addItem acc it)) ≤ rc.validateBudget fs.length (acc.length + 1) :=
  (rc.validateNext_budget s fs _).trans (rc.validateBudget_mono fs.length (addItem_length_le acc it))

theorem begin_budget (c : FileCollection) : rc.budget (rc.begin s c) ≤ rc.validateBudget c.items.length 0 := by
  unfold begin; split
  · exact rc.validateNext_budget s _ []
  · simp [budget]

theorem afterChecks_budget (files : Option FileCollection) :
    rc.budget (rc.afterChecks s files) ≤ rc.filesBudget s.world files := by
  cases files with
  | none => exact le_refl _
  | some c => exact rc.begin_budget s c

theorem failItem_budget (it : Item) (rest : List Item) (e : Error) :
    rc.budget (rc.failItem s it rest e) = rc.loopBudget rest.length := rc.nextItem_budget _ rest

theorem succeedItem_budget (it : Item) (rest : List Item) :
    rc.budget (rc.succeedItem s it rest) = rc.loopBudget rest.length := rc.nextItem_budget _ rest

theorem afterSave_budget (it : Item) (rest : List Item) :
    rc.budget (rc.afterSave s it rest) ≤ 1 + rc.loopBudget rest.length := by
  unfold afterSave; split
  · simp [budget, Stage.budget]
  · rw [succeedItem_budget]; omega

theorem afterTransfer_budget (it : Item) (rest : List Item) :
    rc.budget (rc.afterTransfer s it rest) ≤ 2 + rc.loopBudget rest.length := by
  unfold afterTransfer; split
  · simp [budget, Stage.budget]
  · have := rc.afterSave_budget s it rest; omega

theorem checkLocal_budget (it : Item) (rest : List Item) :
    rc.budget (rc.checkLocal s it rest) ≤ 6 + rc.loopBudget rest.length := by
  unfold checkLocal; split
  · split
    · rw [failItem_budget]; omega
    · rw [nextItem_budget]; omega
    all_goals simp [budget, Stage.budget]
  · simp [budget, Stage.budget]

/-- **Every call of `_download_file` lowers the budget.** -/
theorem transferStep_budget (it : Item) (rest : List Item) (st : Stage) (r : Reply) :
    rc.budget (rc.transferStep s it rest st r) < st.budget + rc.loopBudget rest.length := by
  have hpos := st.budget_pos
  have hfail : ∀ (t : Machine H) e, rc.budget (rc.failItem t it rest e) < st.budget + rc.loopBudget rest.length :=
    fun t e => by rw [failItem_budget]; omega
  have hraised : ∀ e, rc.budget { s with phase := .raised e } < st.budget + rc.loopBudget rest.length :=
    fun e => by rw [budget_raised]; omega
  cases st <;> cases r <;> simp only [transferStep] <;> try exact hfail _ _
  all_goals try exact hraised _
  case pathExists.ok =>
    split
    · simp [budget, Stage.budget]
    · rw [nextItem_budget]; simp [Stage.budget]
  case pathExists.absent => rw [nextItem_budget]; simp [Stage.budget]
  case getFile.ok =>
    split
    · refine (rc.checkLocal_budget s it rest).trans_lt ?_; simp [Stage.budget]
    · exact hraised _
  case download.ok =>
    split
    · exact hfail _ _
    · split
      · simp only [budget]; split <;> simp [Stage.budget]
      · refine (rc.afterTransfer_budget _ it rest).trans_lt ?_; simp [Stage.budget]
  case unlink.ok | mkdir.ok => simp [budget, Stage.budget]
  case move.ok =>
    split
    · exact hfail _ _
    · refine (rc.afterTransfer_budget _ it rest).trans_lt ?_; simp [Stage.budget]
  case save.ok =>
    refine (rc.afterSave_budget _ it rest).trans_lt ?_; simp [Stage.budget]
  case removeSource.ok => rw [succeedItem_budget]; simp [Stage.budget]

/-! ## Every call lowers the budget -/

theorem budget_pos (h : s.phase.finished = false) : 0 < rc.budget s := by
  rcases hp : s.phase with _ | _ | _ | _ | _ | _ | ⟨_, _, st⟩ | _ | _ | _ <;>
    simp only [hp, Phase.finished, Bool.true_eq_false] at h
  case transfer => simp only [budget, hp]; exact Nat.add_pos_left st.budget_pos _
  all_goals simp only [budget, hp, filesBudget]; omega

/-- **Every call of a state that has neither returned nor raised lowers the budget.** -/
theorem budget_step_lt (r : Reply) (h : s.phase.finished = false) :
    rc.budget (rc.step s r) < rc.budget s := by
  have hraised : ∀ e, rc.budget { s with phase := .raised e } < rc.budget s :=
    fun e => by rw [budget_raised]; exact rc.budget_pos s h
  rcases hp : s.phase with f | f | _ | ⟨it, fs, acc⟩ | ⟨it, fs, acc⟩ | items | ⟨it, rest, st⟩ | _ | _ | e <;>
    simp only [hp, Phase.finished, Bool.true_eq_false] at h
  case transfer =>
    simp only [step, hp]
    exact (rc.transferStep_budget s it rest st r).trans_eq (by simp [budget, hp])
  all_goals cases r <;> simp only [step, hp] <;> try exact hraised _
  case checkConnection.ok =>
    split
    · simp [budget, hp]
    · exact (rc.afterChecks_budget s f).trans_lt (by simp [budget, hp])
  case checkSource.ok => exact (rc.afterChecks_budget s f).trans_lt (by simp [budget, hp])
  case listFiles.ok =>
    exact (rc.begin_budget s _).trans_lt (by simp [budget, hp, filesBudget, FileCollection.items])
  case probe.ok =>
    split
    · simp [budget, hp]
    · exact (rc.validateNext_addItem_budget s it fs acc).trans_lt (by simp only [budget, hp]; omega)
  case probe.absent =>
    exact (rc.validateNext_addItem_budget s it fs acc).trans_lt (by simp only [budget, hp]; omega)
  case fetch.ok =>
    split
    · exact (rc.validateNext_addItem_budget s it fs acc).trans_lt (by simp only [budget, hp]; omega)
    · exact hraised _
  case cleanup.ok => rw [startTransfer_budget]; simp [budget, hp]
  case cleanup.cut => exact rc.budget_pos s (by simp [hp, Phase.finished])
  all_goals simp [budget, hp]

theorem step_of_finished (r : Reply) (h : s.phase.finished = true) : rc.step s r = s := by
  cases hp : s.phase <;> simp only [hp, Phase.finished, Bool.false_eq_true] at h <;> simp [step, hp]

theorem run_of_finished (rs : List Reply) (h : s.phase.finished = true) : rc.run s rs = s := by
  induction rs with
  | nil => rfl
  | cons r rs ih => rw [run_cons, rc.step_of_finished s r h, ih]

/-- **A run given at least `budget` replies has returned or raised.** -/
theorem run_finished (rs : List Reply) (h : rc.budget s ≤ rs.length) :
    (rc.run s rs).phase.finished = true := by
  induction rs generalizing s with
  | nil =>
    cases hf : s.phase.finished
    · have := rc.budget_pos s hf
      simp only [List.length_nil] at h; omega
    · exact hf
  | cons r rs ih =>
    cases hf : s.phase.finished
    · have := rc.budget_step_lt s r hf
      exact ih _ (by simp only [List.length_cons] at h; omega)
    · rw [rc.run_of_finished s _ hf]; exact hf

/-- `run(["a"])` from `/src` to `/local` on thirteen replies, its budget. -/
theorem run_finished_src :
    srcToLocalRun.budget (srcToLocalRun.start (some (.sized [.str "a"])) ⟨fun _ => none, fun _ => none, none⟩) ≤
        (List.replicate 13 Reply.ok).length ∧
      (srcToLocalRun.run (srcToLocalRun.start (some (.sized [.str "a"])) ⟨fun _ => none, fun _ => none, none⟩)
        (List.replicate 13 .ok)).phase.finished = true :=
  ⟨by decide, srcToLocalRun.run_finished _ _ (by decide)⟩

end RunContext

end Onetl.Downloader
