import IndexKeeper.Proofs.EngineRuns

set_option autoImplicit false

namespace IndexKeeper

open Store (Unkept Indexed indexesAt indexAt markerAt besideMarkerAt)

def Engine.kept (e : Engine) : List String := e.publisher.current.toList ++ markers

structure Serves (s : Store) (root : Location) (e : Engine) : Prop where
  names : ∀ index, e.publisher.current = some index → s.Names root e.disk.files index
  doomed : s.Doomed e.kept e.disk

theorem poll_source_sourced (s : Store) (root : Location) (keep : List String) (e : Engine) (source : Source)
    (store : e.coordinator.store = s) (plain : Path.Plain source.name)
    (standing : s.Standing root (Unkept root keep) e.disk) :
    s.Steps root (Unkept root keep) (Sourced root) e.disk (e.pollSource source).1.disk ∧
      (e.pollSource source).1.coordinator.store = s := by
  obtain ⟨steps, still⟩ := poll_source_steps s root _ e source store plain standing
  exact ⟨steps_weaken s root _ _ _ _ _ steps fun l => (List.prefix_append (root ++ ["source"]) [source.name]).trans,
    still⟩

theorem poll_sources_steps (s : Store) (root : Location) (keep : List String) (e : Engine) (o : RoundOutcome)
    (sources : List Source) (store : e.coordinator.store = s)
    (plain : ∀ source ∈ sources, Path.Plain source.name)
    (standing : s.Standing root (Unkept root keep) e.disk) :
    s.Steps root (Unkept root keep) (Sourced root) e.disk (e.pollSources o sources).1.disk ∧
      (e.pollSources o sources).1.coordinator.store = s := by
  induction sources generalizing e o with
  | nil => exact ⟨steps_refl s root _ _ e.disk, store⟩
  | cons source rest ih =>
      obtain ⟨first, still⟩ := poll_source_sourced s root keep e source store (plain source List.mem_cons_self) standing
      have further (o : RoundOutcome) := ih (e.pollSource source).1 o still
        (fun other member => plain other (List.mem_cons_of_mem _ member))
        (standing_steps s root _ _ _ _ standing first)
      have both (o : RoundOutcome) := And.intro (steps_trans s root _ _ _ _ _ first (further o).1) (further o).2
      rw [Engine.pollSources]
      generalize e.pollSource source = answer at first still both ⊢
      obtain ⟨next, polled, verdict⟩ := answer
      cases verdict with
      | cancelled => exact ⟨first, still⟩
      | changed => exact both _
      | unchanged => exact both _
      | failed => exact both _

section Serves

variable (s : Store) (root : Location) (a : Annals) (e : Engine) (sound : Sound s root a e) (serves : Serves s root e)
include sound serves

theorem serves_standing : s.Standing root (Unkept root e.kept) e.disk :=
  s.place_standing root e.disk.files sound.place e.kept e.disk rfl serves.doomed

theorem serves_steps (next : Engine) (publisher : next.publisher = e.publisher) (touched : Location → Prop)
    (steps : s.Steps root (Unkept root e.kept) touched e.disk next.disk) (apart : ¬ touched (markerAt root)) :
    Serves s root next := by
  have kept : next.kept = e.kept := by rw [Engine.kept, publisher]; rfl
  have marker := steps.files.get _ (Store.index_dir_stays root e.kept "current"
    (List.mem_append_right _ (by decide))) apart
  refine ⟨fun index current => ?_, kept ▸ doomed_steps s root _ _ _ _ _ serves.doomed steps⟩
  rw [publisher] at current
  exact names_moved s root _ _ sound.place (s.place_moves root _ sound.place _ _ _ steps.files) index marker
    (steps.files.directories _ (Store.index_dir_stays root e.kept index
      (List.mem_append_left _ (Option.mem_toList.mpr current)))) (serves.names index current)

theorem fresh_not_kept (absent : e.disk.files.get? (indexAt root (e.indexName e.generations)) = none) :
    e.indexName e.generations ∉ e.kept := by
  have named := sound.indexes e.generations
  intro member
  rcases List.mem_append.mp member with current | marker
  · have names := serves.names _ (Option.mem_toList.mp current)
    have there := ((FileTree.is_directory_join e.disk.files s.indexRoot _ _ named.1
      (s.place_index_way root _ sound.place)).mp names.there).2
    rw [show indexesAt root ++ [e.indexName e.generations] = _ from rfl] at there
    cases absent.symm.trans there
  · exact named.2.2 marker

theorem serves_regenerate (absent : e.disk.files.get? (indexAt root (e.indexName e.generations)) = none)
    (spared : s.indexDir (e.indexName e.generations) ∉ e.disk.doomed) :
    Regenerated e s root e.kept (e.indexName e.generations) e.regenerate.1 e.regenerate.2 := by
  obtain ⟨plain, -, other⟩ := sound.indexes e.generations
  exact regenerate_done e s root e.kept sound.store sound.publisher sound.place
    (List.mem_append_right _ (by decide)) _ rfl plain other absent
    (doomed_with s e.kept e.disk serves.doomed _ spared) (sound.confined _)
    (fresh_not_kept s root a e sound serves absent)

theorem serves_regenerated (absent : e.disk.files.get? (indexAt root (e.indexName e.generations)) = none)
    (spared : s.indexDir (e.indexName e.generations) ∉ e.disk.doomed) : Serves s root e.regenerate.2 := by
  have named := sound.indexes e.generations
  have unspared := doomed_with s e.kept e.disk serves.doomed _ spared
  have done := serves_regenerate s root a e sound serves absent spared
  generalize e.indexName e.generations = index at named unspared done
  generalize e.regenerate = answer at done ⊢
  obtain ⟨result, next⟩ := answer
  cases result with
  | error error =>
      obtain ⟨publisher, steps, -⟩ := done.failed error rfl
      exact serves_steps s root a e sound serves next publisher _ steps
        (marker_not_generated root _ named.2.2)
  | ok name =>
      obtain ⟨-, d, steps, held, ⟨marked, fits⟩, swapped⟩ := done.published name rfl
      have publisher : next.publisher = (e.publisher.swap d index).1 := congrArg Prod.fst swapped
      have disk : next.disk = (e.publisher.swap d index).2 := congrArg Prod.snd swapped
      constructor
      · intro name current
        rw [publisher, swap_current] at current
        obtain rfl := Option.some.inj current
        rw [disk, swap_files]
        exact ⟨named, marked, fits, held.there⟩
      · rw [Engine.kept, publisher, swap_current, disk]
        have rest : s.Doomed ((some index).toList ++ markers) d := by
          refine doomed_narrower s _ _ (fun name member => ?_) d (doomed_steps s root _ _ _ _ _ unspared steps)
          rcases List.mem_append.mp member with here | marker
          · exact List.mem_cons.mpr (.inl (Option.some.inj (Option.mem_toList.mp here)).symm)
          · exact List.mem_cons_of_mem _ (List.mem_append_right _ marker)
        rw [← sound.publisher] at rest ⊢
        refine swap_doomed e.publisher d _ rest index fun old current other => ?_
        have oldName := (serves.names old current).named
        exact ⟨oldName.1, by simpa [other] using oldName.2.2⟩

theorem serves_elsewhere (next : Engine) (publisher : next.publisher = e.publisher)
    (doomed : next.disk.doomed = e.disk.doomed) (files : s.Elsewhere root e.disk.files next.disk.files) :
    Serves s root next := by
  have kept : next.kept = e.kept := by rw [Engine.kept, publisher]; rfl
  refine ⟨fun index current => ?_, fun path member => kept ▸ serves.doomed path (doomed ▸ member)⟩
  have same (name : String) : next.disk.files.get? (indexAt root name) = e.disk.files.get? (indexAt root name) :=
    files.same _ (.inr (List.prefix_append _ [name]))
  rw [publisher] at current
  exact names_moved s root _ _ sound.place (elsewhere_in_place s root _ _ sound.place files) index
    (same "current") (same index).trans (serves.names index current)

end Serves

theorem serves_started (s : Store) (root : Location) (disk : Disk) (e : Engine)
    (place : s.InPlace root disk.files) (marked : Marked root disk.files) (idle : disk.doomed = [])
    (opened : Publisher.start s disk = (.ok e.publisher, e.disk)) : Serves s root e := by
  have serving := serving_started s root [] [] e.publisher disk e.disk place marked
    (fun path member => absurd (idle ▸ member) List.not_mem_nil)
    (fun index plain member => absurd (idle ▸ member) List.not_mem_nil)
    (fun index names member => absurd (idle ▸ member) List.not_mem_nil) opened nofun
  exact ⟨fun index current => (serving.current index current).1, serving.doomed⟩

theorem running_serves {allowed : Generator → Prop} (s : Store) (root : Location)
    (confined : ∀ g, allowed g → g.Confined) (a : Annals) (e : Engine) (running : Running allowed s root a e) :
    Serves s root e := by
  induction running with
  | opened a u d e store indexes generators idle started place marked fits =>
      subst store
      obtain ⟨disk, -, still, loaded, opened, -, -⟩ := u.started d e idle started
      have files := publisher_start_files u.store disk e.disk e.publisher opened
      exact serves_started u.store root disk e (files ▸ place) (files ▸ marked) still opened
  | reopened a u e next fates running store indexes generators started ih =>
      have sound := running_sound s root confined a e running
      subst store
      obtain ⟨disk, made, still, loaded, opened, -, -⟩ := u.started _ next rfl started
      have files : disk.files = e.disk.files :=
        made ▸ init_in_place u.store root ⟨e.disk.files, [], fates⟩ sound.place rfl
      exact serves_started u.store root disk next (files ▸ sound.place) (files ▸ sound.marked) still opened
  | polled a e source running named ih =>
      have sound := running_sound s root confined a e running
      have steps := poll_source_sourced s root e.kept e source sound.store (plain_of_check_name source.name named)
        (serves_standing s root a e sound ih)
      exact serves_steps s root a e sound ih _ (Engine.poll_source_frame e source).publisher _ steps.1
        (index_not_sourced root ["current"])
  | regenerated a e running absent spared ih =>
      exact serves_regenerated s root a e (running_sound s root confined a e running) ih absent spared
  | reclaimed a e which running ih =>
      have sound := running_sound s root confined a e running
      have steps := reclaim_steps s root _ e.disk which (serves_standing s root a e sound ih)
      exact serves_steps s root a e sound ih { e with disk := e.disk.reclaim which } rfl Nothing steps id
  | elsewhere a e next running coordinator publisher indexes generators doomed files ih =>
      exact serves_elsewhere s root a e (running_sound s root confined a e running) ih next publisher doomed files

section Polls

variable (s : Store) (root : Location) (a : Annals) (e : Engine) (sound : Sound s root a e) (serves : Serves s root e)

theorem kept_regenerating : e.regenerating.kept = e.kept := by
  rw [Engine.kept, e.regenerating_frame.1]
  rfl

include sound serves in
theorem regenerating_steps (named : ∀ source ∈ e.sources, Config.checkName source.name = .ok ()) :
    s.Steps root (Unkept root e.kept) (Sourced root) e.disk e.regenerating.disk :=
  (poll_sources_steps s root e.kept { e with loop := { e.loop with firstRound := false } } {} e.sources sound.store
    (fun source member => plain_of_check_name source.name (named source member))
    (serves_standing s root a e sound serves)).1

theorem fresh_regenerating (polls : s.Steps root (Unkept root e.kept) (Sourced root) e.disk e.regenerating.disk)
    (absent : e.disk.files.get? (indexAt root (e.indexName e.generations)) = none)
    (spared : s.indexDir (e.indexName e.generations) ∉ e.disk.doomed) :
    e.regenerating.indexName e.regenerating.generations = e.indexName e.generations ∧
      e.regenerating.disk.files.get?
        (indexAt root (e.regenerating.indexName e.regenerating.generations)) = none ∧
      s.indexDir (e.regenerating.indexName e.regenerating.generations) ∉ e.regenerating.disk.doomed := by
  obtain ⟨-, indexName, -, generations⟩ := e.regenerating_frame
  rw [indexName, generations]
  refine ⟨rfl, ?_, fun member => spared (polls.doomed _ member)⟩
  rcases polls.files.lost _ (index_not_sourced root [e.indexName e.generations]) with same | vanished
  · exact same.trans absent
  · exact vanished

end Polls

end IndexKeeper
