import Mathlib.Data.List.TakeWhile
import IndexKeeper.Proofs.LoadedStore

set_option autoImplicit false

namespace IndexKeeper

open Store (sourceAt)

theorem durable_of_trimmed (key : String) (filled : key ≠ "") (trimmed : Text.trim key = key) : Durable key := by
  refine ⟨Bool.eq_false_iff.mpr fun blank => filled ?_, trimmed⟩
  have gone : key.toList.dropWhile Text.isBlank = [] := List.dropWhile_eq_nil_iff.mpr (List.all_eq_true.mp blank)
  rw [← trimmed, Text.trim, Text.trimChars, gone]
  rfl

section Empty

variable (s : Store) (d : Disk) (formed : d.files.WellFormed) (empty : d.files.readDirectory s.sourceRoot = .ok [])

include empty in
theorem empty_opened : d.files.isDirectory s.sourceRoot = true := by
  unfold FileTree.readDirectory at empty
  unfold FileTree.isDirectory
  split at empty
  · cases empty
  · next found => rw [found]
  · cases empty

include empty in
theorem empty_loads (names : List String) : Coordinator.load s d.files names = .ok ⟨s, .empty⟩ := by
  have listed : s.listStored d.files = .ok [] := by
    unfold Store.listStored Store.directoryNames
    rw [empty]
    simp [Except.bind, Except.map, pure, Except.pure]
  rw [Coordinator.load, listed]
  rfl

include formed empty in
theorem empty_vacant (root : Location) (leads : d.files.way s.root = .ok root) (source : String) :
    d.files.get? (sourceAt root source) = none := by
  obtain ⟨usable, there⟩ := (FileTree.is_directory_join d.files s.root "source" root (by decide) leads).mp
    (empty_opened s d empty)
  have children : d.files.children (root ++ ["source"]) = [] := by
    unfold FileTree.readDirectory at empty
    rw [Store.sourceRoot, FileTree.find_join d.files s.root "source" root (by decide) leads, if_pos usable,
      there] at empty
    exact Except.ok.inj empty
  cases found : d.files.get? (sourceAt root source) with
  | none => rfl
  | some e =>
      have member := (FileTree.mem_children_iff d.files formed (root ++ ["source"]) source e).mpr found
      rw [children] at member
      cases member

end Empty

theorem recorded_entries (c after : Coordinator) (d next : Disk) (history : List (Call × Except StoreError String))
    (recorded : Recorded c d history after next) (name : String) :
    after.store = c.store ∧ after.entries.get? name = match lastStored history name with
      | some call => some ⟨name, call.key, c.store.artifactPath name⟩
      | none => c.entries.get? name := by
  induction recorded with
  | start => exact ⟨rfl, rfl⟩
  | call history before disk call reached accepted ih =>
      obtain ⟨store, entry⟩ := ih
      rcases record_cases before disk call.source call.key call.bytes with ⟨e, next, -, done⟩ | ⟨next, -, done⟩
      · rw [done, last_stored_cons, if_neg fun counts => Bool.false_ne_true counts.2]
        exact ⟨store, entry⟩
      · rw [done, last_stored_cons, NameMap.get_insert, store]
        refine ⟨rfl, ?_⟩
        by_cases same : call.source = name
        · subst same
          rw [if_pos rfl, if_pos ⟨rfl, rfl⟩]
        · rw [if_neg (Ne.symm same), if_neg fun counts => same counts.1]
          exact entry

theorem placed_of_stored (s : Store) (history : List (Call × Except StoreError String)) (name : String) (call : Call)
    (stored : lastStored history name = some call) : ∃ last, lastPlaced s history name = some last := by
  obtain ⟨entry, found, -⟩ := Option.map_eq_some_iff.mp stored
  have listed := List.find?_some found
  have whole : placed s entry.1 entry.2 = true := by
    cases answer : entry.2 with
    | ok path => rfl
    | error e => simp [answer, Except.isOk, Except.toBool] at listed
  cases last : lastPlaced s history name with
  | some put => exact ⟨put, rfl⟩
  | none =>
      rw [lastPlaced, Option.map_eq_none_iff, List.find?_eq_none] at last
      exact absurd (by simp_all) (last entry (List.mem_of_find?_eq_some found))

section Emptied

variable (s : Store) (root : Location) (d : Disk) (formed : d.files.WellFormed)
  (empty : d.files.readDirectory s.sourceRoot = .ok []) (leads : d.files.way s.root = .ok root) (name : String)
  (plain : Path.Plain name)
include formed empty leads plain

theorem empty_source_way : d.files.way (s.sourceDir name) =
    if FileTree.nameLimit < name.utf8ByteSize then .error .nameTooLong else .error .notFound := by
  have there := (FileTree.is_directory_join d.files s.root "source" root (by decide) leads).mp (empty_opened s d empty)
  rw [source_way s root d.files name (source_root_way s root d.files leads there.2) plain]
  unfold FileTree.enter
  rw [if_neg plain.2.1, if_neg plain.2.2.1]
  have vacant := empty_vacant s d formed empty root leads name
  rw [sourceAt] at vacant
  rw [vacant]

theorem empty_read (file : String) (filePlain : Path.Plain file) :
    ∃ e, d.files.read (Path.join (s.sourceDir name) file) = .error e ∧ e ≠ .isDirectory ∧
      (FileTree.Usable (s.sourceDir name) file → name.utf8ByteSize ≤ FileTree.nameLimit → e = .notFound) := by
  have way := empty_source_way s root d formed empty leads name plain
  by_cases long : FileTree.nameLimit < name.utf8ByteSize
  · rw [if_pos long] at way
    refine ⟨_, FileTree.read_astray d.files _ file filePlain _ way, ?_,
      fun _ short => absurd long (Nat.not_lt.mpr short)⟩
    unfold FileTree.strayed
    split
    · exact nofun
    · split <;> exact nofun
  · rw [if_neg long] at way
    refine ⟨_, FileTree.read_astray d.files _ file filePlain _ way, ?_, fun usable _ => ?_⟩
    · unfold FileTree.strayed
      split
      · exact nofun
      · split <;> exact nofun
    · rw [FileTree.strayed, if_neg usable.1, if_neg (Nat.not_lt.mpr usable.2.1)]

end Emptied

theorem stored_after_calls (s : Store) (root : Location) (d next : Disk) (formed : d.files.WellFormed)
    (empty : d.files.readDirectory s.sourceRoot = .ok []) (leads : d.files.way s.root = .ok root)
    (opened : next.files.way s.sourceRoot = .ok (root ++ ["source"]))
    (history : List (Call × Except StoreError String)) (after : Coordinator) (name : String) (plain : Path.Plain name)
    (stored : Stored ⟨s, .empty⟩ d history after next name)
    (durable : ∀ call, lastStored history name = some call → Durable call.key) :
    s.stored? next.files name = .ok ((lastStored history name).map fun call =>
      ⟨name, call.key, s.artifactPath name⟩) := by
  obtain ⟨key, artifact⟩ := stored
  cases last : lastStored history name with
  | some call =>
      obtain ⟨put, placed⟩ := placed_of_stored s history name call last
      rw [last] at key
      rw [placed] at artifact
      exact s.stored_pair next.files name call.key put.bytes (durable call last) key.2 artifact
  | none =>
      rw [last] at key
      obtain ⟨e, unread, missing⟩ := empty_read s root d formed empty leads name plain "version" (by decide)
      have version : next.files.read (s.versionPath name) = .error e := key.2.trans unread
      cases put : lastPlaced s history name with
      | none =>
          rw [put] at artifact
          obtain ⟨e, absent, noDirectory, -⟩ := empty_read s root d formed empty leads name plain "build.complog"
            (by decide)
          have nowhere : next.files.pathExists (s.artifactPath name) = false := by
            refine Bool.eq_false_iff.mpr fun found => ?_
            have read := artifact.trans absent
            rcases (FileTree.path_exists_iff_read _ _).mp found with ⟨bytes, there⟩ | directory
            · cases read.symm.trans there
            · exact noDirectory (Except.error.inj (read.symm.trans directory))
          rw [Store.stored?, nowhere]
          rfl
      | some call =>
          rw [put] at artifact
          have there : next.files.read (Path.join (s.sourceDir name) "build.complog") = .ok call.bytes := artifact
          -- The artifact has been put there, so its key could be there too, and is not.
          have gone : e = .notFound := by
            cases way : next.files.way (s.sourceDir name) with
            | error e => cases (FileTree.read_astray next.files _ "build.complog" (by decide) e way).symm.trans there
            | ok l =>
                have entered := (source_way s root next.files name opened plain).symm.trans way
                have short := ((FileTree.enter_plain next.files _ l name plain).mp entered).2.1
                have usable := usable_of_read next.files _ "build.complog" l (by decide) way call.bytes there
                exact missing.2 (FileTree.usable_shorter _ "build.complog" "version" (by decide) (by decide) usable
                  (by decide) (by decide)) short
          rw [Store.stored?, (FileTree.path_exists_iff_read _ _).mpr (.inl ⟨_, artifact⟩), if_pos rfl,
            Store.readVersionKey, Store.read_trimmed_missing _ _ (gone ▸ version)]
          rfl

theorem recorded_store_reloads (s : Store) (d next : Disk) (formed : d.files.WellFormed)
    (empty : d.files.readDirectory s.sourceRoot = .ok []) (idle : d.doomed = []) (names : List String)
    (configured : ∀ name ∈ names, Config.checkName name = .ok ())
    (history : List (Call × Except StoreError String))
    (after : Coordinator) (recorded : Recorded ⟨s, .empty⟩ d history after next)
    (calls : ∀ entry ∈ history, entry.1.source ∈ names ∧ entry.1.key ≠ "" ∧ Text.trim entry.1.key = entry.1.key) :
    Coordinator.load s d.files names = .ok ⟨s, .empty⟩ ∧ Coordinator.load s next.files names = .ok after := by
  refine ⟨empty_loads s d empty names, ?_⟩
  have plain (name : String) (named : name ∈ names) : Path.Plain name :=
    plain_of_check_name name (configured name named)
  obtain ⟨root, standing⟩ := opened_standing s d formed (empty_opened s d empty) idle
  obtain ⟨store, stands, stored⟩ := stored_after ⟨s, .empty⟩ root Nothing d standing history after next recorded
  have leads : d.files.way s.root = .ok root := reaches_way _ _ _ _ standing.reaches
  have nextLeads : next.files.way s.root = .ok root := reaches_way _ _ _ _ stands.reaches
  have opened := source_root_way s root next.files nextLeads stands.source
  have fits := ((FileTree.is_directory_join d.files s.root "source" root (by decide) leads).mp
    (empty_opened s d empty)).1
  have known (name : String) := (recorded_entries ⟨s, .empty⟩ after d next history recorded name).2
  have told (name : String) (call : Call) (last : lastStored history name = some call) :
      call.source = name ∧ ∃ entry ∈ history, entry.1 = call := by
    obtain ⟨entry, found, rfl⟩ := Option.map_eq_some_iff.mp last
    have counts : entry.1.source = name ∧ entry.2.isOk = true := by simpa using List.find?_some found
    exact ⟨counts.1, entry, List.mem_of_find?_eq_some found, rfl⟩
  have holds (name : String) (plain : Path.Plain name) : s.stored? next.files name =
      .ok ((lastStored history name).map fun call => ⟨name, call.key, s.artifactPath name⟩) := by
    refine stored_after_calls s root d next formed empty leads opened history after name plain (stored name plain) ?_
    intro call last
    obtain ⟨-, entry, member, rfl⟩ := told name call last
    exact durable_of_trimmed _ (calls entry member).2.1 (calls entry member).2.2
  refine (s.load_iff root next.files stands.formed nextLeads stands.source names plain after).mpr ?_
  constructor
  case store => exact store
  case fits => exact fits
  case known =>
    intro name named
    rw [holds name (plain name named), known name]
    cases lastStored history name <;> rfl
  case others =>
    intro name unnamed
    rw [known name]
    cases last : lastStored history name with
    | none => rfl
    | some call =>
        obtain ⟨rfl, entry, member, rfl⟩ := told name call last
        exact absurd (calls entry member).1 unnamed
  case readable => exact fun name plain => ⟨_, holds name plain⟩

namespace HalfStored

def disk : Disk where
  files := ⟨[(["data"], .directory), (["data", "source"], .directory)], []⟩
  doomed := []
  fates := List.replicate 8 .works ++ [.refused, .works, .torn 2]

def one : Call := ⟨"a", "k1", Bytes.ofText "one"⟩

def two : Call := ⟨"b", "k2", Bytes.ofText "two"⟩

def three : Call := ⟨"a", "k3", Bytes.ofText "three"⟩

def first : Except StoreError String × Coordinator × Disk :=
  Coordinator.record ⟨⟨"data"⟩, .empty⟩ disk one.source one.key one.bytes

def second : Except StoreError String × Coordinator × Disk :=
  first.2.1.record first.2.2 two.source two.key two.bytes

def third : Except StoreError String × Coordinator × Disk :=
  second.2.1.record second.2.2 three.source three.key three.bytes

theorem recorded : Recorded ⟨⟨"data"⟩, .empty⟩ disk [(three, third.1), (two, second.1), (one, first.1)] third.2.1
    third.2.2 := by
  unfold third second first
  exact .call _ _ _ three (.call _ _ _ two (.call _ _ _ one .start (by decide +kernel)) (by decide +kernel))
    (by decide +kernel)

end HalfStored

open HalfStored in
theorem half_stored_store_reloads :
    first.1.isOk = true ∧ second.1 = .error (.unwritable "data/source/b/version.tmp") ∧
      third.1 = .error (.unwritable "data/source/a/build.complog.tmp") ∧
      third.2.2.files.read "data/source/a/build.complog.tmp" = .ok (Bytes.ofText "th") ∧
      third.2.1.snapshot = ⟨["data/source/a/build.complog"], .ofList [("a", "k1")]⟩ ∧
      Coordinator.load ⟨"data"⟩ third.2.2.files ["a", "b"] = .ok third.2.1 := by
  refine ⟨by decide +kernel, by decide +kernel, by decide +kernel, by decide +kernel, by decide +kernel, ?_⟩
  exact (recorded_store_reloads ⟨"data"⟩ disk third.2.2 (FileTree.well_formed_of_entries _ (by decide) (by decide))
    (by decide +kernel) rfl ["a", "b"] (by decide +kernel) _ third.2.1 recorded (by
      intro entry member
      simp only [List.mem_cons, List.not_mem_nil, or_false] at member
      rcases member with rfl | rfl | rfl <;> decide +kernel)).2

end IndexKeeper
