import IndexKeeper.Proofs.FileActions
import IndexKeeper.Proofs.NameLookups

set_option autoImplicit false

namespace IndexKeeper

open Store (artifactAt)

def lastCall (calls : List Call) (source : String) : Option Call := calls.find? fun call => call.source = source

structure View where
  snapshot : Snapshot
  started : List Call
  ended : List Call

structure Reader where
  view : View
  path : String
  handle : Except FileError Handle
  got : Bytes
  atEnd : Bool

def Reader.carried (r : Reader) (t : FileTree) (action : FileAction) : Reader :=
  { r with handle := r.handle.map (Handle.carried t action) }

def Reader.next (r : Reader) (t : FileTree) (handle : Handle) (count : Nat) : Reader :=
  let piece := ((handle.contents t).drop r.got.length).take count
  { r with got := r.got ++ piece, atEnd := piece.isEmpty }

structure Writer where
  call : Call
  todo : List FileAction

structure Scene where
  files : FileTree
  coordinator : Coordinator
  holder : Option Writer
  started : List Call
  ended : List Call
  views : List View
  readers : List Reader

namespace Scene

def recorded (scene : Scene) (call : Call) : Coordinator :=
  let stored : StoredArtifact := ⟨call.source, call.key, scene.coordinator.store.artifactPath call.source⟩
  { scene.coordinator with entries := scene.coordinator.entries.insert call.source stored }

-- A call starts when it gets the lock and gives it back when it ends. Readers need no lock.
inductive Step : Scene → Scene → Prop where
  | starts (scene : Scene) (call : Call) (free : scene.holder = none)
      (accepted : Config.checkName call.source = .ok ()) :
      Step scene { scene with
        holder := some ⟨call, FileAction.storing scene.coordinator.store call⟩
        started := call :: scene.started }
  | acts (scene : Scene) (writer : Writer) (action : FileAction) (rest : List FileAction) (next : FileTree)
      (held : scene.holder = some writer) (takes : FileAction.Takes writer.todo action rest)
      (works : action.apply scene.files = .ok next) :
      Step scene { scene with
        files := next
        holder := some ⟨writer.call, rest⟩
        readers := scene.readers.map fun reader => reader.carried scene.files action }
  | ends (scene : Scene) (call : Call) (held : scene.holder = some ⟨call, []⟩) :
      Step scene { scene with
        coordinator := scene.recorded call
        holder := none
        ended := call :: scene.ended }
  | looks (scene : Scene) (free : scene.holder = none) :
      Step scene { scene with
        views := ⟨scene.coordinator.snapshot, scene.started, scene.ended⟩ :: scene.views }
  | opens (scene : Scene) (view : View) (path : String) (taken : view ∈ scene.views)
      (listed : path ∈ view.snapshot.paths) :
      Step scene { scene with
        readers := ⟨view, path, Handle.opened scene.files path, [], false⟩ :: scene.readers }
  | reads (scene : Scene) (before after : List Reader) (reader : Reader) (handle : Handle) (count : Nat)
      (there : scene.readers = before ++ reader :: after) (usable : reader.handle = .ok handle)
      (further : reader.atEnd = false) (some : 0 < count) :
      Step scene { scene with
        readers := before ++ reader.next scene.files handle count :: after }

inductive Reached (start : Scene) : Scene → Prop where
  | here : Reached start start
  | step (scene next : Scene) (reached : Reached start scene) (step : Step scene next) : Reached start next

def atRest (t : FileTree) (c : Coordinator) (history : List Call) : Scene := ⟨t, c, none, history, history, [], []⟩

end Scene

structure CallsKept (s : Store) (t : FileTree) (c : Coordinator) (history : List Call) : Prop where
  formed : t.WellFormed
  opened : t.isDirectory s.sourceRoot = true
  store : c.store = s
  accepted : ∀ call ∈ history, Config.checkName call.source = .ok ()
  entries : ∀ source, c.entries.get? source = (lastCall history source).map fun call =>
    ⟨source, call.key, s.artifactPath source⟩
  artifacts : ∀ source call, lastCall history source = some call → t.read (s.artifactPath source) = .ok call.bytes

-- The call for a source that was current when a snapshot was taken, or one that started later.
def MayRead (view : View) (scene : Scene) (source : String) (call : Call) : Prop :=
  call.source = source ∧ (lastCall view.ended source = some call ∨
    ∃ later, scene.started = later ++ view.started ∧ call ∈ later)

inductive Shows (s : Store) (root : Location) (t : FileTree) (source : String) (bytes : Bytes) : Handle → Prop where
  | linked (read : t.read (s.artifactPath source) = .ok bytes) :
      Shows s root t source bytes (.linked (artifactAt root source))
  | unlinked : Shows s root t source bytes (.unlinked bytes)

structure View.Sound (s : Store) (scene : Scene) (view : View) : Prop where
  keys : ∀ source, view.snapshot.versionKeys.get? source = (lastCall view.ended source).map Call.key
  paths : view.snapshot.paths = view.snapshot.versionKeys.names.map s.artifactPath
  -- Calls that ended since had to start since, and so had the one that has the lock.
  since : ∃ later more, scene.started = later ++ view.started ∧ scene.ended = more ++ view.ended ∧
    (∀ call ∈ more, call ∈ later) ∧ ∀ writer, scene.holder = some writer → writer.call ∈ later

structure Reader.Sound (s : Store) (root : Location) (scene : Scene) (reader : Reader) : Prop where
  view : reader.view ∈ scene.views
  reads : ∃ source call handle, Path.Plain source ∧ reader.path = s.artifactPath source ∧
    MayRead reader.view scene source call ∧ reader.handle = .ok handle ∧
    Shows s root scene.files source call.bytes handle ∧ reader.got <+: call.bytes ∧
    (reader.atEnd = true → reader.got = call.bytes)

structure Scene.Sound (s : Store) (root : Location) (scene : Scene) : Prop where
  standing : s.Standing root Nothing scene.files.idle
  store : scene.coordinator.store = s
  accepted : ∀ call ∈ scene.ended, Config.checkName call.source = .ok ()
  entries : ∀ source, scene.coordinator.entries.get? source = (lastCall scene.ended source).map fun call =>
    ⟨source, call.key, s.artifactPath source⟩
  -- The artifact in place is that of the last call that ended, or of the one that has the lock.
  current : ∀ source call, lastCall scene.ended source = some call → ∃ now, now.source = source ∧
    scene.files.read (s.artifactPath source) = .ok now.bytes ∧
    (now = call ∨ ∃ writer, scene.holder = some writer ∧ now = writer.call)
  writer : ∀ writer, scene.holder = some writer → Config.checkName writer.call.source = .ok () ∧
    Underway s root writer.call scene.files writer.todo
  views : ∀ view ∈ scene.views, view.Sound s scene
  readers : ∀ reader ∈ scene.readers, reader.Sound s root scene

theorem last_call_source (calls : List Call) (source : String) (call : Call)
    (last : lastCall calls source = some call) :
    call.source = source ∧ call ∈ calls :=
  ⟨by simpa using List.find?_some last, List.mem_of_find?_eq_some last⟩

theorem last_call_cons (call : Call) (calls : List Call) (source : String) :
    lastCall (call :: calls) source = if call.source = source then some call else lastCall calls source := by
  by_cases own : call.source = source
  · simp [lastCall, own]
  · simp [lastCall, own]

theorem last_call_append (more calls : List Call) (source : String) :
    lastCall (more ++ calls) source = (lastCall more source).or (lastCall calls source) := List.find?_append

theorem may_read_later (view : View) (scene next : Scene) (source : String) (call : Call)
    (may : MayRead view scene source call) (more : List Call) (started : next.started = more ++ scene.started) :
    MayRead view next source call := by
  refine ⟨may.1, may.2.imp id ?_⟩
  rintro ⟨later, before, member⟩
  exact ⟨more ++ later, by rw [started, before, List.append_assoc], List.mem_append_right more member⟩

theorem shows_contents (s : Store) (root : Location) (t : FileTree) (standing : s.Standing root Nothing t.idle)
    (source : String) (plain : Path.Plain source) (bytes : Bytes) (handle : Handle)
    (shows : Shows s root t source bytes handle) : handle.contents t = bytes := by
  cases shows with
  | linked read => rw [Handle.contents, ((artifact_read_iff s root t standing source plain bytes).mp read).2.2]
  | unlinked => rfl

theorem underway_done (s : Store) (root : Location) (call : Call) (t : FileTree) (todo : List FileAction)
    (underway : Underway s root call t todo) (none : todo = []) :
    t.read (s.artifactPath call.source) = .ok call.bytes := by
  cases underway with
  | entering => cases none
  | artifact todo inside progress => exact absurd (List.append_eq_nil_iff.mp none).2 nofun
  | version todo inside placed progress => exact placed
  | complete placed => exact placed

theorem next_piece (whole got : Bytes) (count : Nat) (some : 0 < count) (start : got <+: whole) :
    got ++ (whole.drop got.length).take count <+: whole ∧
      (((whole.drop got.length).take count).isEmpty = true →
        got ++ (whole.drop got.length).take count = whole) := by
  obtain ⟨left, rfl⟩ := start
  rw [List.drop_left]
  refine ⟨List.prefix_append_right_inj got |>.mpr (List.take_prefix count left), fun done => ?_⟩
  have nothing : left = [] := by
    rcases List.take_eq_nil_iff.mp (List.isEmpty_iff.mp done) with zero | nothing
    · omega
    · exact nothing
  rw [nothing, List.take_nil]

section Steps

variable (s : Store) (root : Location) (scene : Scene) (sound : scene.Sound s root)
include sound

theorem start_sound (call : Call) (free : scene.holder = none) (accepted : Config.checkName call.source = .ok ()) :
    Scene.Sound s root { scene with
      holder := some ⟨call, FileAction.storing scene.coordinator.store call⟩
      started := call :: scene.started } := by
  refine { sound with
    current := fun source last ended => ?_
    writer := ?_
    views := fun view taken => ?_
    readers := fun reader reading => ?_ }
  · obtain ⟨now, own, read, same | ⟨writer, held, -⟩⟩ := sound.current source last ended
    · exact ⟨now, own, read, .inl same⟩
    · cases free.symm.trans held
  · rintro writer ⟨⟩
    rw [sound.store]
    exact ⟨accepted, .entering⟩
  · obtain ⟨keys, paths, later, more, started, ended, within, -⟩ := sound.views view taken
    refine ⟨keys, paths, call :: later, more, congrArg _ started, ended,
      fun other member => List.mem_cons_of_mem _ (within other member), ?_⟩
    rintro writer ⟨⟩
    exact List.mem_cons_self
  · obtain ⟨view, source, read, handle, plain, path, may, rest⟩ := sound.readers reader reading
    exact ⟨view, source, read, handle, plain, path, may_read_later _ scene _ source read may [call] rfl, rest⟩

theorem act_sound (writer : Writer) (action : FileAction) (rest : List FileAction) (next : FileTree)
    (held : scene.holder = some writer) (takes : FileAction.Takes writer.todo action rest)
    (works : action.apply scene.files = .ok next) :
    Scene.Sound s root { scene with
      files := next
      holder := some ⟨writer.call, rest⟩
      readers := scene.readers.map fun reader => reader.carried scene.files action } := by
  obtain ⟨accepted, underway⟩ := sound.writer writer held
  obtain ⟨further, standing, -, seen⟩ := call_step s root scene.files next sound.standing writer.call action
    (plain_of_check_name _ accepted) writer.todo rest underway takes works
  refine { sound with
    standing := standing
    current := fun source last ended => ?_
    writer := ?_
    views := fun view taken => ?_
    readers := fun reader reading => ?_ }
  · obtain ⟨own, member⟩ := last_call_source _ _ _ ended
    obtain ⟨now, named, read, which⟩ := sound.current source last ended
    rcases seen source (own ▸ plain_of_check_name _ (sound.accepted last member)) with ⟨same, -⟩ | ⟨own, placed, -⟩
    · refine ⟨now, named, same _ read, which.imp id ?_⟩
      rintro ⟨other, also, rfl⟩
      obtain rfl := Option.some.inj (held.symm.trans also)
      exact ⟨_, rfl, rfl⟩
    · exact ⟨writer.call, own, placed, .inr ⟨_, rfl, rfl⟩⟩
  · rintro other ⟨⟩
    exact ⟨accepted, further⟩
  · obtain ⟨keys, paths, later, more, started, ended, within, writing⟩ := sound.views view taken
    refine ⟨keys, paths, later, more, started, ended, within, ?_⟩
    rintro other ⟨⟩
    exact writing writer held
  · obtain ⟨before, member, rfl⟩ := List.mem_map.mp reading
    obtain ⟨view, source, read, handle, plain, path, may, opened, shows, got⟩ := sound.readers before member
    refine ⟨view, source, read, handle.carried scene.files action, plain, path, may, ?_, ?_, got⟩
    · rw [Reader.carried, opened]
      rfl
    · cases shows with
      | linked there =>
          rcases seen source plain with ⟨same, still⟩ | ⟨-, -, gone⟩
          · rw [still]
            exact .linked (same _ there)
          · rw [gone _ there]
            exact .unlinked
      | unlinked =>
          cases action <;> exact .unlinked

theorem end_sound (call : Call) (held : scene.holder = some ⟨call, []⟩) :
    Scene.Sound s root { scene with
      coordinator := scene.recorded call
      holder := none
      ended := call :: scene.ended } := by
  obtain ⟨accepted, underway⟩ := sound.writer _ held
  have placed := underway_done s root call scene.files [] underway rfl
  refine { sound with
    accepted := fun other member => ?_
    entries := fun source => ?_
    current := fun source last ended => ?_
    writer := nofun
    views := fun view taken => ?_
    readers := fun reader reading => ?_ }
  · rcases List.mem_cons.mp member with rfl | before
    · exact accepted
    · exact sound.accepted other before
  · rw [Scene.recorded, NameMap.get_insert, last_call_cons]
    by_cases own : call.source = source
    · subst own
      rw [if_pos rfl, if_pos rfl, sound.store]
      rfl
    · rw [if_neg (Ne.symm own), if_neg own]
      exact sound.entries source
  · rw [last_call_cons] at ended
    by_cases own : call.source = source
    · rw [if_pos own] at ended
      obtain rfl := Option.some.inj ended
      exact ⟨call, own, own ▸ placed, .inl rfl⟩
    · rw [if_neg own] at ended
      obtain ⟨now, named, read, same | ⟨writer, also, rfl⟩⟩ := sound.current source last ended
      · exact ⟨now, named, read, .inl same⟩
      · obtain rfl := Option.some.inj (held.symm.trans also)
        exact absurd named own
  · obtain ⟨keys, paths, later, more, started, ended, within, writing⟩ := sound.views view taken
    refine ⟨keys, paths, later, call :: more, started, congrArg _ ended, fun other member => ?_, nofun⟩
    rcases List.mem_cons.mp member with rfl | before
    · exact writing _ held
    · exact within other before
  · obtain ⟨view, source, read, handle, plain, path, may, rest⟩ := sound.readers reader reading
    exact ⟨view, source, read, handle, plain, path, may_read_later _ scene _ source read may [] rfl, rest⟩

theorem scene_keys (source : String) : scene.coordinator.snapshot.versionKeys.get? source =
    (lastCall scene.ended source).map Call.key := by
  rw [Coordinator.snapshot, Coordinator.versionKeys, NameMap.get_map, sound.entries, Option.map_map]
  rfl

theorem scene_paths : scene.coordinator.snapshot.paths =
    scene.coordinator.snapshot.versionKeys.names.map s.artifactPath := by
  rw [Coordinator.snapshot, Coordinator.versionKeys, NameMap.names_map]
  refine NameMap.values_by_name _ _ _ fun name stored found => ?_
  obtain ⟨call, -, rfl⟩ := Option.map_eq_some_iff.mp ((sound.entries name).symm.trans found)
  rfl

theorem look_sound (free : scene.holder = none) :
    Scene.Sound s root { scene with
      views := ⟨scene.coordinator.snapshot, scene.started, scene.ended⟩ :: scene.views } := by
  refine { sound with
    views := fun view taken => ?_
    readers := fun reader reading => ?_ }
  · rcases List.mem_cons.mp taken with rfl | before
    · refine ⟨scene_keys s root scene sound, scene_paths s root scene sound, [], [], rfl, rfl, nofun, ?_⟩
      intro writer held
      cases free.symm.trans held
    · obtain ⟨keys, paths, since⟩ := sound.views view before
      exact ⟨keys, paths, since⟩
  · obtain ⟨view, reads⟩ := sound.readers reader reading
    exact ⟨List.mem_cons_of_mem _ view, reads⟩

theorem listed_path_leads (view : View) (path : String) (taken : view ∈ scene.views)
    (listed : path ∈ view.snapshot.paths) : ∃ source call, Path.Plain source ∧ path = s.artifactPath source ∧
      MayRead view scene source call ∧ scene.files.read (s.artifactPath source) = .ok call.bytes := by
  obtain ⟨keys, paths, later, more, started, ended, within, writing⟩ := sound.views view taken
  rw [paths] at listed
  obtain ⟨source, named, rfl⟩ := List.mem_map.mp listed
  obtain ⟨key, known⟩ := Option.ne_none_iff_exists'.mp ((NameMap.mem_names_iff _ _).mp named)
  rw [keys] at known
  obtain ⟨first, atView, -⟩ := Option.map_eq_some_iff.mp known
  have since := last_call_append more view.ended source
  rw [← ended, atView] at since
  obtain ⟨last, lastNow⟩ : ∃ last, lastCall scene.ended source = some last := by
    cases newer : lastCall more source with
    | none => exact ⟨first, by rw [since, newer]; rfl⟩
    | some call => exact ⟨call, by rw [since, newer]; rfl⟩
  obtain ⟨own, member⟩ := last_call_source _ _ _ lastNow
  obtain ⟨now, named, read, which⟩ := sound.current source last lastNow
  refine ⟨source, now, own ▸ plain_of_check_name _ (sound.accepted last member), rfl, ⟨named, ?_⟩, read⟩
  rcases which with rfl | ⟨writer, held, rfl⟩
  · cases newer : lastCall more source with
    | none =>
        rw [lastNow, newer] at since
        exact .inl (atView.trans since.symm)
    | some call =>
        rw [lastNow, newer] at since
        obtain rfl := Option.some.inj since
        exact .inr ⟨later, started, within _ (last_call_source _ _ _ newer).2⟩
  · exact .inr ⟨later, started, writing writer held⟩

theorem open_sound (view : View) (path : String) (taken : view ∈ scene.views) (listed : path ∈ view.snapshot.paths) :
    Scene.Sound s root { scene with
      readers := ⟨view, path, Handle.opened scene.files path, [], false⟩ :: scene.readers } := by
  refine { sound with
    views := fun view taken => ?_
    readers := fun reader reading => ?_ }
  · obtain ⟨keys, paths, since⟩ := sound.views view taken
    exact ⟨keys, paths, since⟩
  · rcases List.mem_cons.mp reading with rfl | before
    · obtain ⟨source, call, plain, rfl, may, read⟩ := listed_path_leads s root scene sound view path taken listed
      exact ⟨taken, source, call, _, plain, rfl, may,
        artifact_opened s root scene.files sound.standing source plain call.bytes read, .linked read,
        List.nil_prefix, nofun⟩
    · obtain ⟨view, reads⟩ := sound.readers reader before
      exact ⟨view, reads⟩

theorem read_sound (before after : List Reader) (reader : Reader) (handle : Handle) (count : Nat)
    (there : scene.readers = before ++ reader :: after) (usable : reader.handle = .ok handle) (some : 0 < count) :
    Scene.Sound s root { scene with
      readers := before ++ reader.next scene.files handle count :: after } := by
  have others (other : Reader) (member : other ∈ scene.readers) : other.Sound s root
      { scene with readers := before ++ reader.next scene.files handle count :: after } := by
    obtain ⟨view, reads⟩ := sound.readers other member
    exact ⟨view, reads⟩
  refine { sound with
    views := fun view taken => ?_
    readers := fun other reading => ?_ }
  · obtain ⟨keys, paths, since⟩ := sound.views view taken
    exact ⟨keys, paths, since⟩
  · rcases List.mem_append.mp reading with first | rest
    · exact others other (there ▸ List.mem_append_left _ first)
    · rcases List.mem_cons.mp rest with rfl | last
      · obtain ⟨view, source, call, held, plain, path, may, opened, shows, got, -⟩ :=
          sound.readers reader (there ▸ by simp)
        obtain rfl := Except.ok.inj (opened.symm.trans usable)
        refine ⟨view, source, call, held, plain, path, may, opened, shows, ?_⟩
        rw [Reader.next, shows_contents s root scene.files sound.standing source plain call.bytes held shows]
        exact next_piece call.bytes reader.got count some got
      · exact others other (there ▸ List.mem_append_right _ (List.mem_cons_of_mem _ last))

end Steps

theorem step_sound (s : Store) (root : Location) (scene next : Scene) (sound : scene.Sound s root)
    (step : scene.Step next) : next.Sound s root := by
  cases step with
  | starts call free accepted => exact start_sound s root scene sound call free accepted
  | acts writer action rest next held takes works =>
      exact act_sound s root scene sound writer action rest next held takes works
  | ends call held => exact end_sound s root scene sound call held
  | looks free => exact look_sound s root scene sound free
  | opens view path taken listed => exact open_sound s root scene sound view path taken listed
  | reads before after reader handle count there usable further some =>
      exact read_sound s root scene sound before after reader handle count there usable some

theorem rest_sound (s : Store) (t : FileTree) (c : Coordinator) (history : List Call)
    (kept : CallsKept s t c history) : ∃ root, (Scene.atRest t c history).Sound s root := by
  obtain ⟨root, standing⟩ := opened_standing s t.idle kept.formed kept.opened rfl
  refine ⟨root, standing, kept.store, kept.accepted, kept.entries, fun source last ended => ?_, nofun, nofun,
    nofun⟩
  exact ⟨last, (last_call_source _ _ _ ended).1, kept.artifacts source last ended, .inl rfl⟩

theorem reached_sound (s : Store) (root : Location) (start scene : Scene) (sound : start.Sound s root)
    (reached : start.Reached scene) : scene.Sound s root := by
  induction reached with
  | here => exact sound
  | step scene next reached step ih => exact step_sound s root scene next ih step

-- Between calls this is what is there, and during a call what the call started from.
def Serial (t : FileTree) (c : Coordinator) (history : List Call) (scene : Scene) : Prop :=
  ∃ answered base, scene.ended = answered.map Prod.fst ++ history ∧ (∀ entry ∈ answered, entry.2.isOk = true) ∧
    Recorded c t.idle answered scene.coordinator base.idle ∧
    match scene.holder with
    | none => scene.files = base
    | some writer => FileAction.applyAll scene.files writer.todo =
        FileAction.applyAll base (FileAction.storing scene.coordinator.store writer.call)

theorem step_serial (s : Store) (root : Location) (t : FileTree) (c : Coordinator) (history : List Call)
    (store : c.store = s) (standing : s.Standing root Nothing t.idle) (scene next : Scene)
    (sound : scene.Sound s root) (serial : Serial t c history scene) (step : scene.Step next) :
    Serial t c history next := by
  obtain ⟨answered, base, ended, well, recorded, now⟩ := serial
  cases step with
  | starts call free accepted =>
      rw [free] at now
      obtain rfl := now
      exact ⟨answered, scene.files, ended, well, recorded, rfl⟩
  | acts writer action rest next held takes works =>
      rw [held] at now
      obtain ⟨accepted, underway⟩ := sound.writer writer held
      obtain ⟨-, -, same, -⟩ := call_step s root scene.files next sound.standing writer.call action
        (plain_of_check_name _ accepted) writer.todo rest underway takes works
      exact ⟨answered, base, ended, well, recorded, same.symm.trans now⟩
  | ends call held =>
      rw [held] at now
      have accepted := (sound.writer _ held).1
      subst store
      have baseStanding := (stored_after c root Nothing t.idle standing answered _ _ recorded).2.1
      have written := FileAction.stored c.store root base scene.files baseStanding call
        (plain_of_check_name _ accepted) (by rw [← sound.store]; exact now.symm)
      have whole : scene.coordinator.record base.idle call.source call.key call.bytes =
          (.ok (c.store.artifactPath call.source), scene.recorded call, scene.files.idle) := by
        rw [Coordinator.record, Scene.recorded, sound.store, written]
      have more := Recorded.call answered scene.coordinator base.idle call recorded accepted
      rw [whole] at more
      refine ⟨(call, .ok (c.store.artifactPath call.source)) :: answered, scene.files, congrArg (call :: ·) ended, ?_,
        more, rfl⟩
      intro entry member
      rcases List.mem_cons.mp member with rfl | before
      · rfl
      · exact well entry before
  | looks free => exact ⟨answered, base, ended, well, recorded, now⟩
  | opens view path taken listed => exact ⟨answered, base, ended, well, recorded, now⟩
  | reads before after reader handle count there usable further some =>
      exact ⟨answered, base, ended, well, recorded, now⟩

theorem reached_serial (s : Store) (root : Location) (t : FileTree) (c : Coordinator) (history : List Call)
    (store : c.store = s) (sound : (Scene.atRest t c history).Sound s root) (scene : Scene)
    (reached : (Scene.atRest t c history).Reached scene) : Serial t c history scene := by
  induction reached with
  | here => exact ⟨[], t, rfl, nofun, .start, rfl⟩
  | step scene next reached step ih =>
      exact step_serial s root t c history store sound.standing scene next
        (reached_sound s root _ scene sound reached) ih step

theorem readers_get_whole_artifacts (s : Store) (t : FileTree) (c : Coordinator) (history : List Call)
    (kept : CallsKept s t c history) (scene : Scene) (reached : (Scene.atRest t c history).Reached scene) :
    (∀ view ∈ scene.views, view.snapshot.paths = view.snapshot.versionKeys.names.map s.artifactPath ∧
      ∀ source, view.snapshot.versionKeys.get? source = (lastCall view.ended source).map Call.key) ∧
    (∀ reader ∈ scene.readers, reader.view ∈ scene.views ∧ ∃ source call, reader.path = s.artifactPath source ∧
      MayRead reader.view scene source call ∧ reader.handle.isOk = true ∧ reader.got <+: call.bytes ∧
      (reader.atEnd = true → reader.got = call.bytes)) ∧
    (scene.holder = none → ∃ answered, scene.ended = answered.map Prod.fst ++ history ∧
      (∀ entry ∈ answered, entry.2.isOk = true) ∧
      Recorded c t.idle answered scene.coordinator scene.files.idle) := by
  obtain ⟨root, start⟩ := rest_sound s t c history kept
  have sound := reached_sound s root _ scene start reached
  refine ⟨fun view taken => ⟨(sound.views view taken).paths, (sound.views view taken).keys⟩,
    fun reader reading => ?_, fun free => ?_⟩
  · obtain ⟨view, source, call, handle, -, path, may, opened, -, got, whole⟩ := sound.readers reader reading
    exact ⟨view, source, call, path, may, by rw [opened]; rfl, got, whole⟩
  · obtain ⟨answered, base, ended, well, recorded, now⟩ :=
      reached_serial s root t c history kept.store start scene reached
    rw [free] at now
    obtain rfl := now
    exact ⟨answered, ended, well, recorded⟩

namespace ReplacedWhileRead

def files : FileTree where
  entries := [
    (["data"], .directory), (["data", "source"], .directory), (["data", "source", "a"], .directory),
    (["data", "source", "a", "build.complog"], .file (Bytes.ofText "old")),
    (["data", "source", "a", "version"], .file (Bytes.ofText "k1"))]
  workingDirectory := []

def old : Call := ⟨"a", "k1", Bytes.ofText "old"⟩

def new : Call := ⟨"a", "k2", Bytes.ofText "ne" ++ Bytes.ofText "wer"⟩

def coordinator : Coordinator :=
  ⟨⟨"data"⟩, NameMap.empty.insert "a" ⟨"a", "k1", "data/source/a/build.complog"⟩⟩

theorem begun : CallsKept ⟨"data"⟩ files coordinator [old] := by
  refine ⟨FileTree.well_formed_of_entries _ (by decide) (by decide), by decide +kernel, rfl, ?_, fun source => ?_,
    fun source call last => ?_⟩
  · intro call member
    obtain rfl := List.mem_singleton.mp member
    decide +kernel
  · rw [last_call_cons, coordinator, NameMap.get_insert]
    by_cases own : old.source = source
    · subst own
      decide +kernel
    · rw [if_neg own, if_neg (show source ≠ "a" from Ne.symm own)]
      rfl
  · rw [last_call_cons] at last
    by_cases own : old.source = source
    · rw [if_pos own] at last
      obtain rfl := Option.some.inj last
      subst own
      decide +kernel
    · rw [if_neg own] at last
      cases last

def after (t : FileTree) (action : FileAction) : FileTree :=
  match action.apply t with
  | .ok next => next
  | .error _ => t

theorem after_ok (t : FileTree) (action : FileAction) (works : (action.apply t).isOk = true) :
    action.apply t = .ok (after t action) := by
  unfold after
  cases applied : action.apply t with
  | ok next => rfl
  | error e => rw [applied] at works; cases works

theorem reached : ∃ scene, (Scene.atRest files coordinator [old]).Reached scene ∧
    scene.readers.map (fun reader => (reader.got, reader.atEnd)) =
      [(Bytes.ofText "newer", true), (Bytes.ofText "old", true)] ∧
    scene.coordinator.versionKey? "a" = some "k1" := by
  have now : (Scene.atRest files coordinator [old]).Reached (Scene.atRest files coordinator [old]) := .here
  have now := now.step _ _ (.looks _ rfl)
  have now := now.step _ _ (.opens _ _ "data/source/a/build.complog" List.mem_cons_self (by decide +kernel))
  have now := now.step _ _ (.reads _ [] [] _ (.linked ["data", "source", "a", "build.complog"]) 2 rfl
    (by decide +kernel) rfl (by decide))
  have now := now.step _ _ (.starts _ new rfl (by decide +kernel))
  have now := now.step _ _ (.acts _ _ _ _ _ rfl (.whole _ _) (after_ok _ _ (by decide +kernel)))
  have now := now.step _ _ (.acts _ _ _ _ _ rfl (.whole _ _) (after_ok _ _ (by decide +kernel)))
  have now := now.step _ _ (.acts _ _ _ _ _ rfl (.part _ _ _ _) (after_ok _ _ (by decide +kernel)))
  have now := now.step _ _ (.acts _ _ _ _ _ rfl (.whole _ _) (after_ok _ _ (by decide +kernel)))
  have now := now.step _ _ (.acts _ _ _ _ _ rfl (.whole _ _) (after_ok _ _ (by decide +kernel)))
  have now := now.step _ _ (.opens _ _ "data/source/a/build.complog" List.mem_cons_self (by decide +kernel))
  have now := now.step _ _ (.reads _ [] _ _ (.linked ["data", "source", "a", "build.complog"]) 9 rfl
    (by decide +kernel) rfl (by decide))
  have now := now.step _ _ (.reads _ [] _ _ (.linked ["data", "source", "a", "build.complog"]) 9 rfl
    (by decide +kernel) (by decide +kernel) (by decide))
  have now := now.step _ _ (.reads _ [_] [] _ (.unlinked (Bytes.ofText "old")) 9 rfl (by decide +kernel)
    (by decide +kernel) (by decide))
  have now := now.step _ _ (.reads _ [_] [] _ (.unlinked (Bytes.ofText "old")) 9 rfl (by decide +kernel)
    (by decide +kernel) (by decide))
  exact ⟨_, now, by decide +kernel, by decide +kernel⟩

end ReplacedWhileRead

open ReplacedWhileRead in
theorem replaced_artifact_read_whole : ∃ scene, (Scene.atRest files coordinator [old]).Reached scene ∧
    scene.readers.map (fun reader => (reader.got, reader.atEnd)) =
      [(Bytes.ofText "newer", true), (Bytes.ofText "old", true)] ∧
    scene.coordinator.versionKey? "a" = some "k1" ∧
    ∀ reader ∈ scene.readers, reader.view ∈ scene.views ∧ ∃ source call,
      reader.path = Store.artifactPath ⟨"data"⟩ source ∧ MayRead reader.view scene source call ∧
      reader.handle.isOk = true ∧ reader.got <+: call.bytes ∧ (reader.atEnd = true → reader.got = call.bytes) := by
  obtain ⟨scene, there, got, known⟩ := reached
  have every := readers_get_whole_artifacts ⟨"data"⟩ files coordinator [old] begun scene there
  exact ⟨scene, there, got, known, every.2.1⟩

end IndexKeeper
