import Onetl.Downloader.Content
import Onetl.Downloader.Place

/-!
# Resuming an interrupted run

With `temp_path` set, a run in which no call raises places the items as `placeAll` says. Every state
it passes through agrees, on the items' `local_file`s and sources, with one pass of `placeItem`
stopped between two items or inside one (`OkStage`, `okStage_step`), and the run that returns ends
where the pass ends (`okRun_done_agree`). An interruption, between two calls or while
`download_file` writes `tmp_file`, leaves the files `Midway` (`okRun_interrupted_midway`).

`run()` called again with the same downloader and files validates the same items under its own
temp directory (`runItems_withTempDir`), starts from the files the interruption left, and so places
the items once more from there; by `placeAll_resume_settling` and `placeAll_resume_writing` this
ends as one pass from the start. So the rerun leaves every `local_file` as a single run does
(`rerun_after_interruption_matches_single_run`). In mode `delete_all` with `delete_source` it does
not: the rerun wipes `local_path`, and the sources the first run removed are gone
(`delete_all_rerun_loses_files`).
-/

set_option autoImplicit false

namespace Onetl.Downloader

open Onetl.Path

variable {H : Type}

/-! ## The items of a rerun -/

/-- The item `it` with its `tmp_file` under the temp directory `tmp` instead. -/
def Item.retemp (localPath : PurePath) (tmp : Option PurePath) (it : Item) : Item :=
  { it with tmpFile := tmp.map (· / it.localFile.relativeTo localPath) }

theorem relativeTo_join (p : PurePath) {r : PurePath} (hr : r.absolute = false) :
    (p / r).relativeTo p = r := by
  rw [PurePath.join_of_relative p hr]
  cases r
  simp_all [PurePath.relativeTo]

/-- `resolveFile` puts `tmp_file` under the temp directory as it puts `local_file` under
`local_path`, so the item for another temp directory is the same item retargeted. -/
theorem resolveFile_retemp (cfg : Config H) (tmp tmp' : Option PurePath) (f : FileArg) :
    resolveFile cfg tmp' f = (resolveFile cfg tmp f).map (Item.retemp cfg.localPath tmp') := by
  unfold resolveFile
  cases cfg.sourcePath with
  | none =>
    simp only
    split
    · rfl
    · simp [Except.map, Item.retemp, relativeTo_join _ (rfl : f.toPath.name.absolute = false)]
  | some S =>
    simp only
    split
    · simp [Except.map, Item.retemp, relativeTo_join _ (rfl : (f.toPath.relativeTo S).absolute = false)]
    · split
      · rename_i h
        have ha : f.toPath.absolute = false := by simpa [PurePath.isAbsolute] using h
        simp [Except.map, Item.retemp, relativeTo_join _ ha]
      · rfl

theorem retemp_of_resolveFile {cfg : Config H} {tmp : Option PurePath} {f : FileArg} {it : Item}
    (h : resolveFile cfg tmp f = .ok it) : it.retemp cfg.localPath tmp = it := by
  have := resolveFile_retemp cfg tmp tmp f
  rw [h] at this
  simpa [Except.map] using this.symm

theorem addItem_map {g : Item → Item} {acc : List Item} {it : Item}
    (hinj : ∀ a ∈ acc, g a = g it → a = it) : addItem (acc.map g) (g it) = (addItem acc it).map g := by
  unfold addItem
  by_cases h : it ∈ acc
  · rw [if_pos (List.mem_map_of_mem g h), if_pos h]
  · have h' : g it ∉ acc.map g := fun hm => by
      obtain ⟨a, ha, he⟩ := List.mem_map.1 hm
      exact h (hinj a ha he ▸ ha)
    rw [if_neg h', if_neg h, List.map_append, List.map_singleton]

theorem validItemsAux_retemp (cfg : Config H) (tmp tmp' : Option PurePath) :
    ∀ (fs : List FileArg) (acc : List Item), (∀ a ∈ acc, a.retemp cfg.localPath tmp = a) →
      validItemsAux cfg tmp' fs (acc.map (Item.retemp cfg.localPath tmp')) =
        (validItemsAux cfg tmp fs acc).map (List.map (Item.retemp cfg.localPath tmp'))
  | [], _, _ => rfl
  | f :: fs, acc, hacc => by
    simp only [validItemsAux, resolveFile_retemp cfg tmp tmp' f]
    cases h : resolveFile cfg tmp f with
    | error e => rfl
    | ok it =>
      have hit := retemp_of_resolveFile h
      have hinj : ∀ a ∈ acc, a.retemp cfg.localPath tmp' = it.retemp cfg.localPath tmp' → a = it := by
        intro a ha he
        rw [← hacc a ha, ← hit]
        simp only [Item.retemp, Item.mk.injEq] at he ⊢
        simp [he.1, he.2.1]
      simp only [Except.map]
      rw [addItem_map hinj]
      refine validItemsAux_retemp cfg tmp tmp' fs _ fun a ha => ?_
      rcases mem_addItem.1 ha with ha | rfl
      · exact hacc a ha
      · exact hit

/-! ## Elements without `".."` -/

theorem resolveFile_no_source {cfg : Config H} {tmp : Option PurePath} {f : FileArg} {it : Item}
    (hS : cfg.sourcePath = none) (h : resolveFile cfg tmp f = .ok it) :
    it = ⟨f.toPath, cfg.localPath / f.toPath.name, tmp.map (· / f.toPath.name)⟩ := by
  unfold resolveFile at h
  rw [hS] at h
  simp only at h
  split at h
  · cases h
  · cases h; rfl

/-- With a `source_path`, an element without `".."` resolves to a relative part `r` without `".."`:
the source is `source_path / r`, `local_file` is `local_path / r`, `tmp_file` is under the temp
directory. -/
theorem resolveFile_with_source {cfg : Config H} {tmp : Option PurePath} {f : FileArg} {it : Item}
    {S : PurePath} (hS : cfg.sourcePath = some S) (h : resolveFile cfg tmp f = .ok it)
    (hp : f.toPath.Plain) : ∃ r : PurePath, r.absolute = false ∧ r.Plain ∧
      it = ⟨⟨S.anchor, S.parts ++ r.parts⟩, cfg.localPath / r, tmp.map (· / r)⟩ := by
  unfold resolveFile at h
  rw [hS] at h
  simp only at h
  split at h
  · rename_i hpar
    cases h
    obtain ⟨hpeq, hra, -, hsub⟩ := relativeTo_of_mem_parents hpar
    exact ⟨_, hra, fun hm => hp (hsub _ hm), by simpa only [Item.mk.injEq, and_true] using hpeq⟩
  · split at h
    · rename_i hrel
      cases h
      have ha : f.toPath.absolute = false := by simpa [PurePath.isAbsolute] using hrel
      exact ⟨f.toPath, ha, hp, by rw [PurePath.join_of_relative S ha]⟩
    · cases h

/-- **Elements without `".."` that name the same remote file give the same item.** -/
theorem resolveFile_eq_of_source {cfg : Config H} {tmp : Option PurePath} {f g : FileArg}
    {it jt : Item} (hf : resolveFile cfg tmp f = .ok it) (hg : resolveFile cfg tmp g = .ok jt)
    (hpf : f.toPath.Plain) (hpg : g.toPath.Plain) (he : it.source.normalize = jt.source.normalize) :
    it = jt := by
  cases hS : cfg.sourcePath with
  | none =>
    rw [resolveFile_no_source hS hf, resolveFile_no_source hS hg] at he ⊢
    simp only [PurePath.normalize_of_plain hpf, PurePath.normalize_of_plain hpg] at he
    rw [he]
  | some S =>
    obtain ⟨r, hra, hrp, rfl⟩ := resolveFile_with_source hS hf hpf
    obtain ⟨r', hra', hrp', rfl⟩ := resolveFile_with_source hS hg hpg
    simp only [normalize_append_plain _ _ hrp, normalize_append_plain _ _ hrp', PurePath.mk.injEq,
      List.append_cancel_left_eq, true_and] at he
    obtain rfl : r = r' := by
      cases r; cases r'
      simp_all
    rfl

theorem placeAll_retemp (o : Options) (lp : PurePath) (tmp : Option PurePath) (w : World H)
    (items : List Item) : placeAll o w (items.map (Item.retemp lp tmp)) = placeAll o w items := by
  induction items generalizing w with
  | nil => rfl
  | cons it items ih => exact ih _

namespace RunContext

variable (rc : RunContext H)

theorem runItems_resolved {c : FileCollection} {w : World H} {items : List Item}
    (hv : rc.runItems (some c) w = .ok items) :
    items.Nodup ∧ ∀ it ∈ items, ∃ f ∈ c.items, resolveFile rc.cfg rc.currentTempDir f = .ok it :=
  have h := validItemsAux_spec rc.cfg rc.currentTempDir c.items [] items hv List.nodup_nil
  ⟨h.1, fun it hit => (h.2 it hit).resolve_left (List.not_mem_nil _)⟩

section Plain

variable {c : FileCollection} {w : World H} {items : List Item} (hv : rc.runItems (some c) w = .ok items)
  (hplain : ∀ f ∈ c.items, f.toPath.Plain ∧ f.toPath.parts ≠ [])
include hv hplain

/-- No two items name the same remote file. -/
theorem runItems_sources_nodup : (items.map fun it => it.source.normalize).Nodup := by
  obtain ⟨hn, hm⟩ := rc.runItems_resolved hv
  refine hn.map_on fun x hx y hy he => ?_
  obtain ⟨f, hf, hfx⟩ := hm x hx
  obtain ⟨g, hg, hgy⟩ := hm y hy
  exact resolveFile_eq_of_source hfx hgy (hplain f hf).1 (hplain g hg).1 he

/-- Every `local_file` lies strictly inside `local_path`. -/
theorem runItems_localFile_inside : ∀ it ∈ items, it.localFile.StrictlyInside rc.cfg.localPath := by
  intro it hit
  obtain ⟨f, hf, hr⟩ := (rc.runItems_resolved hv).2 it hit
  exact (resolveFile_strictlyInside rc.cfg _ (hplain f hf).1 (hplain f hf).2 hr).1

/-- Under a temp directory no `local_file` lies in, every item has a `tmp_file`, and it is no
item's `local_file`. -/
theorem runItems_tmpFile {T : PurePath} (hT : rc.currentTempDir = some T)
    (hout : ∀ it ∈ items, ¬ it.localFile.StrictlyInside T) :
    ∀ it ∈ items, ∃ t, it.tmpFile = some t ∧ ∀ jt ∈ items, jt.localFile.normalize ≠ t.normalize := by
  intro it hit
  obtain ⟨f, hf, hr⟩ := (rc.runItems_resolved hv).2 it hit
  rw [hT] at hr
  obtain ⟨t, ht⟩ := Option.isSome_iff_exists.1 (by simpa using resolveFile_tmpFile rc.cfg (some T) hr)
  refine ⟨t, ht, fun jt hjt he => hout jt hjt ?_⟩
  have := (resolveFile_strictlyInside rc.cfg (some T) (hplain f hf).1 (hplain f hf).2 hr).2.1 T t rfl ht
  rwa [PurePath.StrictlyInside, ← he] at this

end Plain

/-- The same downloader, strategy and walk with another directory from `generate_temp_path`. -/
def withTempDir (tempDir : PurePath) : RunContext H := { rc with tempDir := tempDir }

/-- **A rerun validates the same items**, each with its `tmp_file` under the rerun's temp
directory. -/
theorem runItems_withTempDir (T : PurePath) (c : FileCollection) (w w' : World H) :
    (rc.withTempDir T).runItems (some c) w' =
      (rc.runItems (some c) w).map (List.map (Item.retemp rc.cfg.localPath (rc.withTempDir T).currentTempDir)) :=
  validItemsAux_retemp rc.cfg rc.currentTempDir _ c.items [] nofun

/-! ## A run in which no call raises -/

/-- Where a stage of the current item `it` stands, `V` being the files one pass of `placeItem` left
after the items before it: the files agree with `V` on the items until the source's content is in
`tmp_file`, the old `local_file` may then be unlinked (in a mode that replaces), and from the move on
`local_file` holds the content. -/
def OkAt (V : World H) (items : List Item) (it : Item) : Stage → World H → Prop
  | .pathExists, W => AgreeOn items W V
  | .getFile, W => AgreeOn items W V ∧ (V.remoteAt it.source).isSome = true
  | .download replace, W => AgreeOn items W V ∧ Writes rc.cfg.options V it ∧
      (replace = true → rc.cfg.options.mode.keeps = false)
  | .unlink, W => AgreeOn items W V ∧ Writes rc.cfg.options V it ∧ rc.cfg.options.mode.keeps = false ∧
      ∃ t, it.tmpFile = some t ∧ W.localAt t = V.remoteAt it.source
  | .mkdir, W | .move, W =>
    (AgreeOn items W V ∨
        rc.cfg.options.mode.keeps = false ∧ AgreeOn items W (V.setLocal it.localFile none)) ∧
      Writes rc.cfg.options V it ∧ ∃ t, it.tmpFile = some t ∧ W.localAt t = V.remoteAt it.source
  | .save, W => Writes rc.cfg.options V it ∧
      AgreeOn items W (V.setLocal it.localFile (V.remoteAt it.source))
  | .removeSource, W => Writes rc.cfg.options V it ∧ rc.cfg.options.deleteSource = true ∧
      AgreeOn items W (V.setLocal it.localFile (V.remoteAt it.source))

/-- A state of a run in which no call raised, in the loop over `items` started from `wb`: the
current stage stands against the pass over the items before it, and after the loop the files agree
with the whole pass. -/
def OkStage (wb : World H) (items : List Item) (s : Machine H) : Prop :=
  match s.phase with
  | .transfer it rest st => ∃ pre, pre ++ it :: rest = items ∧
      rc.OkAt (placeAll rc.cfg.options wb pre) items it st s.world
  | .removeTemp | .done => AgreeOn items s.world (placeAll rc.cfg.options wb items)
  | _ => False

section Stages

variable {wb : World H} {items : List Item}

theorem okStage_nextItem (t : Machine H) {pre rest : List Item} (h : pre ++ rest = items)
    (hW : AgreeOn items t.world (placeAll rc.cfg.options wb pre)) :
    rc.OkStage wb items (rc.nextItem t rest) := by
  cases rest with
  | nil =>
    rw [List.append_nil] at h
    subst h
    by_cases hT : rc.currentTempDir.isSome <;> simpa [nextItem, finish, OkStage, hT] using hW
  | cons it rest => exact ⟨pre, h, hW⟩

/-- After the item was placed: on to the next item, its pass one item longer. -/
theorem okStage_placed (t : Machine H) {pre : List Item} {it : Item} {rest : List Item}
    (h : pre ++ it :: rest = items)
    (hW : AgreeOn items t.world (placeItem rc.cfg.options (placeAll rc.cfg.options wb pre) it)) :
    rc.OkStage wb items (rc.nextItem t rest) :=
  rc.okStage_nextItem t (show (pre ++ [it]) ++ rest = items by simpa using h)
    (by rwa [placeAll_append])

theorem okStage_afterSave (t : Machine H) {pre : List Item} {it : Item} {rest : List Item}
    (h : pre ++ it :: rest = items) (hw : Writes rc.cfg.options (placeAll rc.cfg.options wb pre) it)
    (hW : AgreeOn items t.world ((placeAll rc.cfg.options wb pre).setLocal it.localFile
      ((placeAll rc.cfg.options wb pre).remoteAt it.source))) :
    rc.OkStage wb items (rc.afterSave t it rest) := by
  obtain ⟨c, hc⟩ := Option.isSome_iff_exists.1 hw.1
  unfold afterSave
  split
  · exact ⟨pre, h, hw, ‹_›, hW⟩
  · refine rc.okStage_placed _ h ?_
    rw [placeItem_of_writes hc hw.2, if_neg ‹_›, ← hc]
    exact hW

theorem okStage_afterTransfer (t : Machine H) {pre : List Item} {it : Item} {rest : List Item}
    (h : pre ++ it :: rest = items) (hw : Writes rc.cfg.options (placeAll rc.cfg.options wb pre) it)
    (hW : AgreeOn items t.world ((placeAll rc.cfg.options wb pre).setLocal it.localFile
      ((placeAll rc.cfg.options wb pre).remoteAt it.source))) :
    rc.OkStage wb items (rc.afterTransfer t it rest) := by
  unfold afterTransfer
  split
  · exact ⟨pre, h, hw, hW⟩
  · exact rc.okStage_afterSave t h hw hW

variable (htmp : ∀ it ∈ items, ∃ t, it.tmpFile = some t ∧
  ∀ jt ∈ items, jt.localFile.normalize ≠ t.normalize)
include htmp

/-- **A call of `_download_file` that returns keeps `OkStage`.** -/
theorem okStage_transferStep {s : Machine H} {it : Item} {rest : List Item} {st : Stage}
    (hs : rc.OkStage wb items s) (hp : s.phase = .transfer it rest st) :
    rc.OkStage wb items (rc.transferStep s it rest st .ok) := by
  rw [OkStage, hp] at hs
  obtain ⟨pre, hpre, hok⟩ := hs
  have hit : it ∈ items := by rw [← hpre]; simp
  have hS : it.source ∈ items.map Item.source := List.mem_map_of_mem _ hit
  have hL : it.localFile ∈ items.map Item.localFile := List.mem_map_of_mem _ hit
  obtain ⟨t, ht, htL⟩ := htmp it hit
  have htL' : ∀ q ∈ items.map Item.localFile, q.normalize ≠ t.normalize := by
    simpa only [List.forall_mem_map] using htL
  cases st with
  | pathExists =>
    simp only [transferStep]
    split
    · exact ⟨pre, hpre, hok, by rwa [← hok.2 _ hS]⟩
    · rename_i hn
      refine rc.okStage_placed _ hpre ?_
      rw [placeItem_of_remote_none (by rw [← hok.2 _ hS]; simpa using hn)]
      exact hok
  | getFile =>
    obtain ⟨hA, hsome⟩ := hok
    simp only [transferStep, hA.2 _ hS, hsome, if_true, checkLocal, hA.1 _ hL]
    split
    · rename_i hLs
      split
      · exact rc.okStage_placed _ hpre (by rw [placeItem_of_kept (by simp [*, FileWriteMode.keeps]) hLs]; exact hA)
      · exact rc.okStage_placed _ hpre (by rw [placeItem_of_kept (by simp [*, FileWriteMode.keeps]) hLs]; exact hA)
      · rename_i hne hni
        have hk : rc.cfg.options.mode.keeps = false := by
          cases hm : rc.cfg.options.mode <;> simp_all [FileWriteMode.keeps]
        exact ⟨pre, hpre, hA, ⟨hsome, by simp [hk]⟩, fun _ => hk⟩
    · exact ⟨pre, hpre, hA, ⟨hsome, by simp_all⟩, nofun⟩
  | download replace =>
    obtain ⟨hA, hw, hrep⟩ := hok
    obtain ⟨c, hc⟩ := Option.isSome_iff_exists.1 hw.1
    have hA' : AgreeOn items (s.world.setLocal t (some c)) (placeAll rc.cfg.options wb pre) :=
      (Agree.setLocal_left htL' _ _).trans hA
    simp only [transferStep, hA.2 _ hS, hc, ht]
    split
    · rename_i hr
      exact ⟨pre, hpre, hA', hw, hrep (Bool.and_eq_true_iff.1 hr).1, t, ht, by simp [hc]⟩
    · exact ⟨pre, hpre, .inl hA', hw, t, ht, by simp [hc]⟩
  | unlink =>
    obtain ⟨hA, hw, hk, t', ht', htc⟩ := hok
    rw [ht] at ht'
    obtain rfl := Option.some.inj ht'
    simp only [transferStep]
    refine ⟨pre, hpre, .inr ⟨hk, hA.setLocal _ _⟩, hw, t, ht, ?_⟩
    simpa [(htL it hit).symm] using htc
  | mkdir => exact ⟨pre, hpre, hok⟩
  | move =>
    obtain ⟨hA, hw, t', ht', htc⟩ := hok
    rw [ht] at ht'
    obtain rfl := Option.some.inj ht'
    obtain ⟨c, hc⟩ := Option.isSome_iff_exists.1 hw.1
    have hmove : s.world.moveLocal (it.tmpFile.getD it.localFile) it.localFile =
        some ((s.world.setLocal t none).setLocal it.localFile (some c)) := by
      rw [ht, Option.getD_some, World.moveLocal_eq_some]
      exact ⟨c, htc.trans hc, rfl⟩
    simp only [transferStep, hmove]
    refine rc.okStage_afterTransfer _ hpre hw ?_
    rw [hc]
    rcases hA with hA | ⟨-, hA⟩
    · exact ((Agree.setLocal_left htL' _ _).trans hA).setLocal _ _
    · simpa using ((Agree.setLocal_left htL' _ _).trans hA).setLocal it.localFile (some c)
  | save =>
    obtain ⟨hw, hA⟩ := hok
    exact rc.okStage_afterSave _ hpre hw ((Agree.setStore_left _ _).trans hA)
  | removeSource =>
    obtain ⟨hw, hd, hA⟩ := hok
    obtain ⟨c, hc⟩ := Option.isSome_iff_exists.1 hw.1
    refine rc.okStage_placed _ hpre ?_
    rw [placeItem_of_writes hc hw.2, if_pos hd, ← hc]
    exact hA.removeRemote _

variable (hout : ∀ it ∈ items, ¬ it.localFile.StrictlyInside rc.tempDir)
include hout

/-- **Every call of a run in which no call raises keeps `OkStage`.** -/
theorem okStage_step {s : Machine H} (hs : rc.OkStage wb items s) : rc.OkStage wb items (rc.step s .ok) := by
  rcases hp : s.phase with _ | _ | _ | _ | _ | _ | ⟨it, rest, st⟩ | _ | _ | _ <;>
    simp only [OkStage, hp] at hs
  case transfer =>
    simp only [step, hp]
    exact rc.okStage_transferStep htmp (by rw [OkStage, hp]; exact hs) hp
  case removeTemp =>
    simp only [step, hp, OkStage]
    refine (Agree.clearBelow_left ?_ _).trans hs
    simpa only [List.forall_mem_map] using hout
  case done => rw [step_done _ _ _ hp, OkStage, hp]; exact hs

omit htmp hout in
theorem okStage_loopStart : rc.OkStage wb items (rc.loopStart wb items) := by
  unfold loopStart startTransfer
  exact rc.okStage_nextItem _ (show [] ++ items = items from rfl) (Agree.refl _)

end Stages

/-- A torn write of `download_file` changes only the file it writes. -/
theorem step_torn_world (s : Machine H) (b : Bytes) :
    (rc.step s (.torn b)).world = s.world ∨ ∃ it rest replace c,
      s.phase = .transfer it rest (.download replace) ∧
      (rc.step s (.torn b)).world = s.world.setLocal (it.tmpFile.getD it.localFile) (some c) := by
  rcases hp : s.phase with _ | _ | _ | _ | _ | _ | ⟨it, rest, st⟩ | _ | _ | _
  case transfer =>
    simp only [step, hp]
    rcases rc.transferStep_world s it rest st (.torn b) with
      h | ⟨⟨replace, rfl⟩, c, h⟩ | ⟨-, h, -⟩ | ⟨-, h, -⟩ | ⟨-, h, -⟩ | ⟨-, h, -⟩
    · exact .inl h
    · exact .inr ⟨it, rest, replace, c, rfl, h⟩
    all_goals cases h
  all_goals exact .inl (by simp [step, hp])

/-- **A state of a run in which no call raised leaves the files `Midway`** in the pass over the
items. -/
theorem okStage_midway {wb : World H} {items : List Item} {s : Machine H} (hs : rc.OkStage wb items s) :
    Midway rc.cfg.options wb s.world items := by
  rcases hp : s.phase with _ | _ | _ | _ | _ | _ | ⟨it, rest, st⟩ | _ | _ | _ <;>
    simp only [OkStage, hp] at hs
  case transfer =>
    obtain ⟨pre, hpre, hok⟩ := hs
    have between : AgreeOn items s.world (placeAll rc.cfg.options wb pre) →
        Midway rc.cfg.options wb s.world items :=
      fun h => .inl ⟨pre, it :: rest, hpre.symm, h⟩
    have inside : ∀ v, Writes rc.cfg.options (placeAll rc.cfg.options wb pre) it →
        (v = none ∧ rc.cfg.options.mode.keeps = false ∨
          v = (placeAll rc.cfg.options wb pre).remoteAt it.source) →
        AgreeOn items s.world ((placeAll rc.cfg.options wb pre).setLocal it.localFile v) →
        Midway rc.cfg.options wb s.world items := by
      intro v hw hv h
      obtain ⟨c, hc⟩ := Option.isSome_iff_exists.1 hw.1
      rcases hv with ⟨rfl, hk⟩ | rfl
      · exact .inr ⟨pre, it, rest, c, hpre.symm, hc, hw, .inl ⟨hk, h⟩⟩
      · exact .inr ⟨pre, it, rest, c, hpre.symm, hc, hw, .inr (hc ▸ h)⟩
    cases st with
    | pathExists => exact between hok
    | getFile => exact between hok.1
    | download => exact between hok.1
    | unlink => exact between hok.1
    | mkdir =>
      rcases hok with ⟨hA | ⟨hk, hA⟩, hw, -⟩
      · exact between hA
      · exact inside none hw (.inl ⟨rfl, hk⟩) hA
    | move =>
      rcases hok with ⟨hA | ⟨hk, hA⟩, hw, -⟩
      · exact between hA
      · exact inside none hw (.inl ⟨rfl, hk⟩) hA
    | save => exact inside _ hok.1 (.inr rfl) hok.2
    | removeSource => exact inside _ hok.1 (.inr rfl) hok.2.2
  case removeTemp | done => exact .inl ⟨items, [], by simp, hs⟩

section Runs

variable {files : Option FileCollection} {w₀ : World H} {items : List Item}
  (hv : rc.runItems files w₀ = .ok items)
  (htmp : ∀ it ∈ items, ∃ t, it.tmpFile = some t ∧ ∀ jt ∈ items, jt.localFile.normalize ≠ t.normalize)
  (hout : ∀ it ∈ items, ¬ it.localFile.StrictlyInside rc.tempDir)
include hv htmp hout

/-- **Every state of a run in which no call raises is before the loop, or an `OkStage` of the loop
over the validated items from the files after the cleanup.** -/
theorem okRun_front_or_stage (n : Nat) :
    rc.Front files w₀ (rc.run (rc.start files w₀) (List.replicate n .ok)) ∨
      rc.OkStage (rc.base w₀) items (rc.run (rc.start files w₀) (List.replicate n .ok)) := by
  induction n with
  | zero => exact .inl (rc.start_front files w₀)
  | succ n ih =>
    rw [List.replicate_succ', run_append, run_cons, run_nil]
    rcases ih with hf | hs
    · rcases rc.front_step hf .ok with (hf' | ⟨items', -, hv', heq⟩) | ⟨_, hcut, -⟩
      · exact .inl hf'
      · obtain rfl : items' = items := by simpa [hv] using hv'.symm
        rw [heq]
        exact .inr rc.okStage_loopStart
      · cases hcut
    · exact .inr (rc.okStage_step htmp hout hs)

/-- **A run in which no call raises, interrupted after any call or while `download_file` writes,
leaves the files as they were, or `Midway` in the pass over the validated items.** -/
theorem okRun_interrupted_midway (n : Nat) {tail : List Reply} (htail : tail = [] ∨ ∃ b, tail = [.torn b]) :
    (rc.run (rc.start files w₀) (List.replicate n .ok ++ tail)).world = w₀ ∨
      Midway rc.cfg.options (rc.base w₀)
        (rc.run (rc.start files w₀) (List.replicate n .ok ++ tail)).world items := by
  rw [run_append]
  rcases rc.okRun_front_or_stage hv htmp hout n with hf | hs
  · left
    rcases htail with rfl | ⟨b, rfl⟩
    · exact hf.world
    · simp only [run_cons, run_nil]
      rcases rc.step_torn_world (rc.run (rc.start files w₀) (List.replicate n .ok)) b with h | ⟨it, rest, replace, c, hp, -⟩
      · simpa [h] using hf.world
      · exact False.elim (by simpa [hp, FrontPhase] using hf.phase)
  · right
    rcases htail with rfl | ⟨b, rfl⟩
    · exact rc.okStage_midway hs
    · simp only [run_cons, run_nil]
      rcases rc.step_torn_world (rc.run (rc.start files w₀) (List.replicate n .ok)) b with h | ⟨it, rest, replace, c, hp, h⟩
      · rw [h]; exact rc.okStage_midway hs
      · -- the torn write went to `tmp_file`, which is no item's `local_file`
        have hs' := hs
        rw [OkStage, hp] at hs'
        obtain ⟨pre, hpre, -⟩ := hs'
        obtain ⟨t, ht, htL⟩ := htmp it (by rw [← hpre]; simp)
        rw [h, ht, Option.getD_some]
        exact (rc.okStage_midway hs).of_agreeOn
          (Agree.setLocal_left (by simpa only [List.forall_mem_map] using htL) _ _)

/-- **A run in which no call raises and that returns leaves the items' files as one pass of
`placeItem` from the files after the cleanup.** -/
theorem okRun_done_agree {n : Nat} (hne : items ≠ [])
    (hdone : (rc.run (rc.start files w₀) (List.replicate n .ok)).phase = .done) :
    AgreeOn items (rc.run (rc.start files w₀) (List.replicate n .ok)).world
      (placeAll rc.cfg.options (rc.base w₀) items) := by
  rcases rc.okRun_front_or_stage hv htmp hout n with hf | hs
  · have ht : (rc.collection files w₀).truthy = false := by simpa [hdone, FrontPhase] using hf.phase
    exact absurd (rc.runItems_nil_of_not_truthy hv ht) hne
  · rw [OkStage, hdone] at hs
    exact hs

end Runs

theorem base_of_ne_deleteAll (h : rc.cfg.options.mode ≠ .deleteAll) (w : World H) :
    rc.base w = w := by
  simp [base, h]

/-- **A rerun under another temp directory that returns, with no call raising, leaves every item's
`local_file` as one pass of `placeItem` from the files it started on.** -/
theorem rerun_done_localAt (T : PurePath) {c : FileCollection} {w₀ w₁ : World H} {items : List Item}
    (hv : rc.runItems (some c) w₀ = .ok items) (htp : rc.cfg.tempPath.isSome = true)
    (hplain : ∀ f ∈ c.items, f.toPath.Plain ∧ f.toPath.parts ≠ [])
    (hout : ∀ it ∈ items, ¬ it.localFile.StrictlyInside T) {m : Nat}
    (hdone : ((rc.withTempDir T).downloaderRun (some c) w₁ (List.replicate m .ok)).phase = .done) :
    ∀ it ∈ items,
      ((rc.withTempDir T).downloaderRun (some c) w₁ (List.replicate m .ok)).world.localAt it.localFile =
        (placeAll rc.cfg.options (rc.base w₁) items).localAt it.localFile := by
  intro it hit
  obtain ⟨P, hP⟩ := Option.isSome_iff_exists.1 htp
  have hT : (rc.withTempDir T).currentTempDir = some T := by simp [currentTempDir, withTempDir, hP]
  -- the rerun validates the same items, under `T`
  have hv' := (rc.runItems_withTempDir T c w₀ w₁).trans (congrArg (Except.map _) hv)
  have hout' : ∀ jt ∈ items.map (Item.retemp rc.cfg.localPath (rc.withTempDir T).currentTempDir),
      ¬ jt.localFile.StrictlyInside (rc.withTempDir T).tempDir := by
    intro jt hjt
    obtain ⟨it, hit, rfl⟩ := List.mem_map.1 hjt
    exact hout it hit
  have hL : it.localFile ∈ (items.map (Item.retemp rc.cfg.localPath
      (rc.withTempDir T).currentTempDir)).map Item.localFile := by
    simpa [Function.comp_def, Item.retemp] using List.mem_map_of_mem Item.localFile hit
  have htmp' := (rc.withTempDir T).runItems_tmpFile hv' hplain hT hout'
  have h := ((rc.withTempDir T).okRun_done_agree hv' htmp' hout'
    (by simpa using List.ne_nil_of_mem hit) hdone).1 it.localFile hL
  rwa [placeAll_retemp] at h

/-- **A pass from where an interrupted pass left the files places every item's `local_file` as the
pass from the start does**, unless both `delete_all` and `delete_source` are set. -/
theorem placeAll_base_resume {w₀ w₁ : World H} {items : List Item}
    (hsrc : (items.map fun it => it.source.normalize).Nodup)
    (hin : ∀ it ∈ items, it.localFile.StrictlyInside rc.cfg.localPath)
    (hmode : ¬ (rc.cfg.options.mode = .deleteAll ∧ rc.cfg.options.deleteSource = true))
    (hM : Midway rc.cfg.options (rc.base w₀) w₁ items) :
    ∀ q ∈ items.map Item.localFile, (placeAll rc.cfg.options (rc.base w₁) items).localAt q =
      (placeAll rc.cfg.options (rc.base w₀) items).localAt q := by
  by_cases hA : rc.cfg.options.mode.keeps = true ∨ rc.cfg.options.deleteSource = true
  · have hb : rc.cfg.options.mode ≠ .deleteAll := fun hd => by
      rcases hA with hk | hds
      · simp [hd, FileWriteMode.keeps] at hk
      · exact hmode ⟨hd, hds⟩
    rw [rc.base_of_ne_deleteAll hb, rc.base_of_ne_deleteAll hb] at *
    exact placeAll_resume_settling hA hsrc hM
  · simp only [not_or, Bool.not_eq_true] at hA
    by_cases hd : rc.cfg.options.mode = .deleteAll
    · -- `delete_all` wipes `local_path`, where every `local_file` lies, before either pass
      have hrem := hM.remoteAt_of_keepSource hA.2
      refine (placeAll_agreeOn _ (fun _ => id) ⟨fun q hq => ?_, fun q hq => ?_⟩).1
      · obtain ⟨jt, hjt, rfl⟩ := List.mem_map.1 hq
        have h1 : rc.cfg.localPath.normalize ∈ jt.localFile.normalize.parents := hin jt hjt
        simp only [base, hd, if_true, World.localAt_clearBelow, h1]
      · obtain ⟨jt, hjt, rfl⟩ := List.mem_map.1 hq
        rw [base, if_pos hd, World.remoteAt_clearBelow, hrem jt hjt]
    · rw [rc.base_of_ne_deleteAll hd, rc.base_of_ne_deleteAll hd] at *
      exact placeAll_resume_writing hA.1 hA.2 hM

/-- **An interrupted run followed by a rerun that returns leaves every item's `local_file` as a
single run does**: with `temp_path` set, elements without `".."`, no `local_file` inside either
temp directory, no call raising but the interruption (after any call, or while `download_file`
writes), and not both `delete_all` and `delete_source`. -/
theorem rerun_after_interruption_matches_single_run (T : PurePath) (c : FileCollection)
    (w₀ : World H) {items : List Item} (hv : rc.runItems (some c) w₀ = .ok items)
    (htp : rc.cfg.tempPath.isSome = true)
    (hmode : ¬ (rc.cfg.options.mode = .deleteAll ∧ rc.cfg.options.deleteSource = true))
    (hplain : ∀ f ∈ c.items, f.toPath.Plain ∧ f.toPath.parts ≠ [])
    (htemp : ∀ it ∈ items, ¬ it.localFile.StrictlyInside rc.tempDir ∧ ¬ it.localFile.StrictlyInside T)
    (n : Nat) {tail : List Reply} (htail : tail = [] ∨ ∃ b, tail = [.torn b]) (m m' : Nat)
    (hrerun : ((rc.withTempDir T).downloaderRun (some c)
      (rc.downloaderRun (some c) w₀ (List.replicate n .ok ++ tail)).world (List.replicate m .ok)).phase = .done)
    (hsingle : (rc.downloaderRun (some c) w₀ (List.replicate m' .ok)).phase = .done) :
    ∀ it ∈ items, ((rc.withTempDir T).downloaderRun (some c)
        (rc.downloaderRun (some c) w₀ (List.replicate n .ok ++ tail)).world
        (List.replicate m .ok)).world.localAt it.localFile =
      (rc.downloaderRun (some c) w₀ (List.replicate m' .ok)).world.localAt it.localFile := by
  intro it hit
  have hL := List.mem_map_of_mem Item.localFile hit
  obtain ⟨P, hP⟩ := Option.isSome_iff_exists.1 htp
  have hout : ∀ it ∈ items, ¬ it.localFile.StrictlyInside rc.tempDir := fun it hit => (htemp it hit).1
  have htmp := rc.runItems_tmpFile hv hplain (by simp [currentTempDir, hP]) hout
  rw [rc.rerun_done_localAt T hv htp hplain (fun it hit => (htemp it hit).2) hrerun it hit]
  simp only [downloaderRun] at hsingle ⊢
  rw [(rc.okRun_done_agree hv htmp hout (List.ne_nil_of_mem hit) hsingle).1 _ hL]
  -- the rerun places the items again from where the interruption left the files
  rcases rc.okRun_interrupted_midway hv htmp hout n htail with hW | hM
  · rw [hW]
  · exact rc.placeAll_base_resume (rc.runItems_sources_nodup hv hplain)
      (rc.runItems_localFile_inside hv hplain) hmode hM _ hL

/-- `FileDownloader(source_path="/src", local_path="/local", temp_path="/tmp", options=o)`, the
temp directory of its run `/tmp/run1`. -/
def srcToLocalTempRun (o : Options) : RunContext Unit where
  cfg :=
    { localPath := ⟨.slash, [⟨"local", by decide⟩]⟩
      sourcePath := some ⟨.slash, [⟨"src", by decide⟩]⟩
      tempPath := some ⟨.slash, [⟨"tmp", by decide⟩]⟩
      filter := none
      limit := none
      hwmType := none
      options := o
      localPath_absolute := rfl
      localPath_plain := by decide
      hwmType_source := by decide }
  strategy := ⟨false, false, false⟩
  tempDir := .ofString "/tmp/run1"
  walkOrder := []

/-- `run(["a"])` in mode `overwrite`, interrupted while `download_file` writes `/tmp/run1/a`, then
run again under `/tmp/run2`. -/
theorem rerun_after_interruption_matches_single_run_overwrite :
    (srcToLocalTempRun { mode := .overwrite }).runItems (some (.sized [.str "a"])) remoteALocalA =
        .ok [⟨.ofString "/src/a", .ofString "/local/a", some (.ofString "/tmp/run1/a")⟩] ∧
      (srcToLocalTempRun { mode := .overwrite }).cfg.tempPath.isSome = true ∧
      ¬ ((srcToLocalTempRun { mode := .overwrite }).cfg.options.mode = .deleteAll ∧
        (srcToLocalTempRun { mode := .overwrite }).cfg.options.deleteSource = true) ∧
      (∀ f ∈ (FileCollection.sized [.str "a"]).items, f.toPath.Plain ∧ f.toPath.parts ≠ []) ∧
      (∀ it ∈ [(⟨.ofString "/src/a", .ofString "/local/a", some (.ofString "/tmp/run1/a")⟩ : Item)],
        ¬ it.localFile.StrictlyInside (srcToLocalTempRun { mode := .overwrite }).tempDir ∧
        ¬ it.localFile.StrictlyInside (.ofString "/tmp/run2")) ∧
      (((srcToLocalTempRun { mode := .overwrite }).withTempDir (.ofString "/tmp/run2")).downloaderRun
        (some (.sized [.str "a"]))
        ((srcToLocalTempRun { mode := .overwrite }).downloaderRun (some (.sized [.str "a"])) remoteALocalA
          (List.replicate 6 .ok ++ [.torn [9]])).world (List.replicate 11 .ok)).phase = .done ∧
      ((srcToLocalTempRun { mode := .overwrite }).downloaderRun (some (.sized [.str "a"])) remoteALocalA
        (List.replicate 11 .ok)).phase = .done ∧
      ∀ it ∈ [(⟨.ofString "/src/a", .ofString "/local/a", some (.ofString "/tmp/run1/a")⟩ : Item)],
        (((srcToLocalTempRun { mode := .overwrite }).withTempDir (.ofString "/tmp/run2")).downloaderRun
          (some (.sized [.str "a"]))
          ((srcToLocalTempRun { mode := .overwrite }).downloaderRun (some (.sized [.str "a"])) remoteALocalA
            (List.replicate 6 .ok ++ [.torn [9]])).world (List.replicate 11 .ok)).world.localAt it.localFile =
        ((srcToLocalTempRun { mode := .overwrite }).downloaderRun (some (.sized [.str "a"])) remoteALocalA
          (List.replicate 11 .ok)).world.localAt it.localFile :=
  have hv : (srcToLocalTempRun { mode := .overwrite }).runItems (some (.sized [.str "a"])) remoteALocalA =
      .ok [⟨.ofString "/src/a", .ofString "/local/a", some (.ofString "/tmp/run1/a")⟩] := rfl
  have htp : (srcToLocalTempRun { mode := .overwrite }).cfg.tempPath.isSome = true := rfl
  have hmode : ¬ ((srcToLocalTempRun { mode := .overwrite }).cfg.options.mode = .deleteAll ∧
      (srcToLocalTempRun { mode := .overwrite }).cfg.options.deleteSource = true) := by decide
  have hplain : ∀ f ∈ (FileCollection.sized [.str "a"]).items, f.toPath.Plain ∧ f.toPath.parts ≠ [] := by
    decide
  have htemp : ∀ it ∈ [(⟨.ofString "/src/a", .ofString "/local/a", some (.ofString "/tmp/run1/a")⟩ : Item)],
      ¬ it.localFile.StrictlyInside (srcToLocalTempRun { mode := .overwrite }).tempDir ∧
      ¬ it.localFile.StrictlyInside (.ofString "/tmp/run2") := by decide
  have hrerun : (((srcToLocalTempRun { mode := .overwrite }).withTempDir (.ofString "/tmp/run2")).downloaderRun
      (some (.sized [.str "a"]))
      ((srcToLocalTempRun { mode := .overwrite }).downloaderRun (some (.sized [.str "a"])) remoteALocalA
        (List.replicate 6 .ok ++ [.torn [9]])).world (List.replicate 11 .ok)).phase = .done := by decide
  have hsingle : ((srcToLocalTempRun { mode := .overwrite }).downloaderRun (some (.sized [.str "a"]))
      remoteALocalA (List.replicate 11 .ok)).phase = .done := by decide
  ⟨hv, htp, hmode, hplain, htemp, hrerun, hsingle,
    (srcToLocalTempRun { mode := .overwrite }).rerun_after_interruption_matches_single_run
      (.ofString "/tmp/run2") _ _ hv htp hmode hplain htemp 6 (.inr ⟨[9], rfl⟩) 11 11 hrerun hsingle⟩

/-- `run(["a"])` in mode `delete_all` with `delete_source`, interrupted before `_remove_temp_dir`:
the first run placed `/local/a` and removed `/src/a`; the rerun wipes `local_path` and finds the
source missing, so `/local/a` ends absent where a single run leaves it holding `[1]`. -/
theorem delete_all_rerun_loses_files :
    ((srcToLocalTempRun { mode := .deleteAll, deleteSource := true }).downloaderRun
        (some (.sized [.str "a"])) remoteALocalA (List.replicate 12 .ok)).phase = .done ∧
      ((srcToLocalTempRun { mode := .deleteAll, deleteSource := true }).downloaderRun
        (some (.sized [.str "a"])) remoteALocalA (List.replicate 12 .ok)).world.localAt
          (.ofString "/local/a") = some [1] ∧
      (((srcToLocalTempRun { mode := .deleteAll, deleteSource := true }).withTempDir
          (.ofString "/tmp/run2")).downloaderRun (some (.sized [.str "a"]))
        ((srcToLocalTempRun { mode := .deleteAll, deleteSource := true }).downloaderRun
          (some (.sized [.str "a"])) remoteALocalA (List.replicate 11 .ok)).world
        (List.replicate 6 .ok)).phase = .done ∧
      (((srcToLocalTempRun { mode := .deleteAll, deleteSource := true }).withTempDir
          (.ofString "/tmp/run2")).downloaderRun (some (.sized [.str "a"]))
        ((srcToLocalTempRun { mode := .deleteAll, deleteSource := true }).downloaderRun
          (some (.sized [.str "a"])) remoteALocalA (List.replicate 11 .ok)).world
        (List.replicate 6 .ok)).world.localAt (.ofString "/local/a") = none := by
  decide

end RunContext

end Onetl.Downloader
