import CodeAtlas.Proofs.Server.Clearing
import CodeAtlas.Proofs.Server.Labels

/-!
# The name of a project is a label

A project is edited, indexed, searched and asked about under one name, and from the same start under
another.  The live chunks of its index are the same in both histories, but for the name in their
records, unless one of the names is that of the project's folder.  That one is also taken where no
name is given, so it decides which chunks go.
-/

namespace CodeAtlas

/-- The world after the files at a place were edited: they are the given ones, or gone. -/
def World.edited (place : Path) (files : Option (FileTree Stored)) (now : Int) (world : World) :
    World :=
  { world with
    disk := files.elim (world.disk.erase place.parts) (world.disk.insert place.parts)
    now }

/-- The document tells the name as that of a project. -/
inductive Value.TellsName (name : String) : Value → Prop where
  | here {fields : List (String × Value)} :
      ("project_name", .text name) ∈ fields → TellsName name (.record fields)
  | inside {fields : List (String × Value)} {field : String × Value} :
      field ∈ fields → TellsName name field.2 → TellsName name (.record fields)

namespace Record

theorem rename_swap {first second : String} {record : Record}
    (untold : ¬ Value.TellsName first (.record record))
    (untold' : ¬ Value.TellsName second (.record record)) :
    record.rename (Equiv.swap first second) = record := by
  refine (List.map_congr_left (fun entry member => ?_)).trans (List.map_id record)
  obtain ⟨key, value⟩ := entry
  by_cases naming : key = "project_name"
  · subst naming
    cases value with
    | text name =>
      have other : name ≠ first := by
        rintro rfl
        exact untold (.here member)
      have other' : name ≠ second := by
        rintro rfl
        exact untold' (.here member)
      simp [Value.rename, Equiv.swap_apply_of_ne_of_ne other other']
    | _ => rfl
  · simp [naming]

/-- The record without the name of its project. -/
def unnamed (record : Record) : Record :=
  record.filter (fun field => field.1 != "project_name")

theorem unnamed_rename (exchange : Equiv.Perm String) (record : Record) :
    (record.rename exchange).unnamed = record.unnamed := by
  simp only [unnamed, rename, changeField]
  induction record with
  | nil => rfl
  | cons field record ih =>
    rw [List.map_cons, List.filter_cons, List.filter_cons, ih]
    by_cases naming : field.1 = "project_name"
    · simp [naming]
    · simp [naming]

end Record

namespace Catalog

theorem renameDocument_swap {first second : String} {value : Value}
    (untold : ¬ value.TellsName first) (untold' : ¬ value.TellsName second) :
    renameDocument (Equiv.swap first second) value = value := by
  -- The records of the chunks stand two levels below the document.
  have metadata {value : Value} (untold : ¬ value.TellsName first)
      (untold' : ¬ value.TellsName second) :
      value.onFields (Record.rename (Equiv.swap first second)) = value := by
    cases value with
    | record fields => exact congrArg Value.record (Record.rename_swap untold untold')
    | _ => rfl
  have entry {value : Value} (untold : ¬ value.TellsName first)
      (untold' : ¬ value.TellsName second) :
      renameEntry (Equiv.swap first second) value = value := by
    cases value with
    | record fields =>
      refine congrArg Value.record
        ((List.map_congr_left (fun field member => ?_)).trans (List.map_id fields))
      rw [metadata (fun told => untold (.inside member told))
        (fun told => untold' (.inside member told)), ite_self]
      rfl
    | _ => rfl
  cases value with
  | record fields =>
    refine congrArg Value.record
      ((List.map_congr_left (fun field member => ?_)).trans (List.map_id fields))
    rw [entry (fun told => untold (.inside member told))
      (fun told => untold' (.inside member told))]
    rfl
  | _ => rfl

def unnamed (catalog : Catalog) : Catalog :=
  catalog.map (fun entry => { entry with record := entry.record.unnamed })

theorem unnamed_rename (exchange : Equiv.Perm String) (catalog : Catalog) :
    unnamed (catalog.rename exchange) = catalog.unnamed := by
  simp [unnamed, rename, Table.map, Entry.rename, Record.unnamed_rename, Function.comp_def]

end Catalog

namespace Server

/-- The live chunks of a project, as calls see them. -/
def liveEntries (env : Environment) (place : Path) (state : ServerState) : Except Fault Catalog :=
  (runFrom ⟨shownIndex env place state.server, state.world⟩ ChunkIndex.catalog!).1

/-- What happens to a project: its files are edited, or a tool is called for it. -/
inductive Step where
  | edit (files : Option (FileTree Stored)) (now : Int)
  | index (inLoop : Bool) (path : String) (incremental : Value)
  | search (inLoop : Bool) (request : SearchRequest)
  | status (inLoop : Bool)

/-- What a step comes to, where the project is indexed under the given name. -/
def Step.take (env : Environment) (place : Path) (name : String) (state : ServerState) :
    Step → ServerState
  | .edit files now => ⟨state.server, state.world.edited place files now⟩
  | .index inLoop path incremental =>
    (runFrom state (call env inLoop (.indexDirectory path (.text name) incremental))).2
  | .search inLoop request => (runFrom state (call env inLoop (.searchCode request))).2
  | .status inLoop => (runFrom state (call env inLoop .indexStatus)).2

/-- The step is about the project: its path leads there, or a tool without a path means it. -/
def Step.IsAbout (place : Path) (state : ServerState) : Step → Prop
  | .edit _ _ => True
  | .index _ path _ => (Path.ofString path).resolve state.world.workingDirectory = place
  | .search _ _ | .status _ => Meant state place

/-- What a history comes to, where the project is indexed under the given name. -/
def after (env : Environment) (place : Path) (name : String) (steps : List Step)
    (start : ServerState) : ServerState :=
  steps.foldl (Step.take env place name) start

/-- Every step of a history is about the project when it comes. -/
def AllAbout (env : Environment) (place : Path) (name : String) : List Step → ServerState → Prop
  | [], _ => True
  | step :: steps, state =>
    step.IsAbout place state ∧ AllAbout env place name steps (step.take env place name state)

/-- Nothing that is kept for the project tells the name. -/
def Untold (env : Environment) (place : Path) (name : String) (world : World) : Prop :=
  ∀ file ∈ namingFiles env place, ∀ stored value,
    world.disk.find? (World.spotOf world.workingDirectory file) = some (.file stored) →
    stored.document = .ok value → ¬ value.TellsName name

end Server

open Server World

namespace Relabelling

variable {labels : Relabelling} {idle : Prop} {state : ServerState} {world : World}

theorem world_of_untold {first second : String} (wellFormed : world.WellFormed)
    (inside : world.IsIn labels.directory) (swaps : labels.exchange = Equiv.swap first second)
    (untold : Untold labels.env labels.place first world)
    (untold' : Untold labels.env labels.place second world) : labels.world world = world := by
  -- A document that stays as it is leaves its file as it is.
  have keeps {change : Value → Value} {stored : Stored}
      (fixed : ∀ value, stored.document = .ok value → change value = value) :
      stored.mapDocument change = stored := by
    rw [Stored.mapDocument]
    cases held : stored.document with
    | error fault => rfl
    | ok value => exact if_pos (fixed value held)
  have fixed (names : List String) (stored : Stored)
      (found : world.disk.find? names = some (.file stored)) :
      labels.file names stored = stored := by
    have untoldAt {file : Path} (naming : file ∈ namingFiles labels.env labels.place)
        (here : names = spotOf labels.directory file) {value : Value}
        (held : stored.document = .ok value) :
        ¬ value.TellsName first ∧ ¬ value.TellsName second := by
      rw [here, ← inside] at found
      exact ⟨untold file naming stored value found held,
        untold' file naming stored value found held⟩
    unfold file
    rw [swaps]
    split
    · rename_i here
      refine keeps (fun value held => ?_)
      obtain ⟨one, other⟩ := untoldAt List.mem_cons_self here held
      exact Catalog.renameDocument_swap one other
    · split
      · rename_i here
        refine keeps (fun value held => ?_)
        obtain ⟨one, other⟩ := untoldAt (List.mem_cons_of_mem _ List.mem_cons_self) here held
        cases value with
        | record fields => exact congrArg Value.record (Record.rename_swap one other)
        | _ => rfl
      · rfl
  exact congrArg (fun disk => { world with disk := disk })
    (FileTree.mapFiles_of_found wellFormed.disk fixed)

theorem world_edited (files : Option (FileTree Stored)) (now : Int) (world : World) :
    (labels.world world).edited labels.place files now =
      labels.world (world.edited labels.place files now) := by
  have disks : files.elim ((world.disk.mapFiles labels.file).erase labels.place.parts)
        ((world.disk.mapFiles labels.file).insert labels.place.parts) =
      (files.elim (world.disk.erase labels.place.parts)
        (world.disk.insert labels.place.parts)).mapFiles labels.file := by
    cases files with
    | none => exact (FileTree.mapFiles_erase world.disk labels.place.parts).symm
    | some tree =>
      refine ((FileTree.mapFiles_insert world.disk tree labels.place.parts).trans ?_).symm
      rw [FileTree.mapFiles_of_fixed file_inside]
      rfl
  exact congrArg (fun disk => { world with disk := disk, now := now }) disks

theorem AtProject.mono {wider : Prop} (here : labels.AtProject idle state)
    (weaker : state.server.current = none → idle → wider) : labels.AtProject wider state :=
  ⟨⟨here.server.current, fun none => weaker none (here.server.idle none), here.server.index,
    here.server.searcher⟩, here.inside⟩

/-- A step under one name does what it does under the other. -/
theorem take_state {step : Step} (here : labels.AtProject True state)
    (about : step.IsAbout labels.place state) (name : String) :
    labels.AtProject True (step.take labels.env labels.place name state) ∧
      step.take labels.env labels.place (labels.exchange name) (labels.state state) =
        labels.state (step.take labels.env labels.place name state) := by
  -- A tool without a path is about the working directory only if that is the project.
  have meant (mean : Meant state labels.place) :
      labels.AtProject (labels.directory = labels.place) state := by
    refine here.mono (fun none _ => ?_)
    cases mean with
    | current known =>
      rw [none] at known
      cases known
    | directory _ same => exact here.inside.symm.trans same
  cases step with
  | edit files now =>
    exact ⟨⟨here.server, here.inside⟩,
      congrArg (ServerState.mk _) (world_edited files now state.world)⟩
  | index inLoop path incremental =>
    have named : (Path.ofString path).resolve labels.directory = labels.place := by
      rw [← here.inside]
      exact about
    obtain ⟨after, same, -⟩ := @MirrorsServer.call labels True
      (.indexDirectory path (.text name) incremental)
      (.indexDirectory path (.text (labels.exchange name)) incremental)
      (MirrorsServer.indexDirectory named (.text name) incremental) inLoop state here
    exact ⟨after, same⟩
  | search inLoop request =>
    obtain ⟨after, same, -⟩ := @MirrorsServer.call labels _ (.searchCode request)
      (.searchCode request) (MirrorsServer.searchCode request) inLoop state (meant about)
    exact ⟨after.mono (fun _ _ => trivial), same⟩
  | status inLoop =>
    obtain ⟨after, same, -⟩ := @MirrorsServer.call labels _ .indexStatus .indexStatus
      MirrorsServer.indexStatus inLoop state (meant about)
    exact ⟨after.mono (fun _ _ => trivial), same⟩

/-- A history under one name comes to what it comes to under the other. -/
theorem after_state {steps : List Step} {name : String} (here : labels.AtProject True state)
    (about : AllAbout labels.env labels.place name steps state) :
    labels.AtProject True (after labels.env labels.place name steps state) ∧
      after labels.env labels.place (labels.exchange name) steps (labels.state state) =
        labels.state (after labels.env labels.place name steps state) := by
  induction steps generalizing state with
  | nil => exact ⟨here, rfl⟩
  | cons step steps ih =>
    obtain ⟨first, later⟩ := about
    obtain ⟨kept, same⟩ := take_state here first name
    rw [after, after, List.foldl_cons, List.foldl_cons, same]
    exact ih kept later

theorem liveEntries_state (here : labels.AtProject idle state) :
    liveEntries labels.env labels.place (labels.state state) =
      (liveEntries labels.env labels.place state).map (Catalog.rename labels.exchange) := by
  have shown : shownIndex labels.env labels.place (labels.server state.server) =
      labels.chunks (shownIndex labels.env labels.place state.server) := by
    rw [shownIndex, shownIndex]
    split
    · rename_i current
      rw [if_pos (show state.server.current = _ from current)]
      cases known : state.server.index with
      | none => simp [Relabelling.server, known, Relabelling.chunks, ChunkIndex.ofFolder]
      | some chunks => simp [Relabelling.server, known]
    · rename_i current
      rw [if_neg (show ¬ state.server.current = _ from current)]
      rfl
  have folder : (shownIndex labels.env labels.place state.server).folder = labels.folder := by
    rw [shownIndex]
    split
    · cases known : state.server.index with
      | none => rfl
      | some chunks => exact here.server.index chunks known
    · rfl
  obtain ⟨-, -, fits⟩ := MirrorsIndex.catalog!
    ⟨shownIndex labels.env labels.place state.server, state.world⟩ ⟨folder, here.inside⟩
  rw [liveEntries, show (labels.state state).server = labels.server state.server from rfl, shown]
  exact fits.eq_map

end Relabelling

open Relabelling in
/-- A project is indexed, searched and asked about from the same start under two names.  Neither is
that of its folder, and nothing that was kept of it before tells one of them.  Then after every
history of edits and calls that are about the project its live chunks are the same, but for the name
of the project in their records. -/
theorem live_entries_are_equal_up_to_project_name {env : Environment} {place : Path}
    {world : World} {first second : String} {steps : List Step} (isPlace : place.IsPlace)
    (wellFormed : world.WellFormed) (outside : ∀ file ∈ namingFiles env place,
      ¬ place.parts <+: spotOf world.workingDirectory file)
    (given : first ≠ "" ∧ second ≠ "") (notOwn : first ≠ place.name ∧ second ≠ place.name)
    (untold : Untold env place first world ∧ Untold env place second world)
    (about : AllAbout env place first steps ⟨.fresh, world⟩) :
    (liveEntries env place (after env place second steps ⟨.fresh, world⟩)).map Catalog.unnamed =
      (liveEntries env place (after env place first steps ⟨.fresh, world⟩)).map
        Catalog.unnamed := by
  let labels : Relabelling :=
    { env, place, directory := world.workingDirectory, exchange := Equiv.swap first second, isPlace,
      empty := Equiv.swap_apply_of_ne_of_ne given.1.symm given.2.symm
      own := Equiv.swap_apply_of_ne_of_ne notOwn.1.symm notOwn.2.symm
      outside }
  have start : labels.AtProject True ⟨.fresh, world⟩ :=
    ⟨⟨by simp [Server.fresh], fun _ => trivial, by simp [Server.fresh], by simp [Server.fresh]⟩, rfl⟩
  have same : labels.state ⟨.fresh, world⟩ = ⟨.fresh, world⟩ :=
    congrArg (ServerState.mk _) (world_of_untold wellFormed rfl rfl untold.1 untold.2)
  obtain ⟨here, ended⟩ := after_state start about
  rw [same, show labels.exchange first = second from Equiv.swap_apply_left first second] at ended
  calc (liveEntries env place (after env place second steps ⟨.fresh, world⟩)).map Catalog.unnamed
      = ((liveEntries env place (after env place first steps ⟨.fresh, world⟩)).map
          (Catalog.rename labels.exchange)).map Catalog.unnamed := by
        rw [← liveEntries_state here]
        exact congrArg (fun state => (liveEntries env place state).map Catalog.unnamed) ended
    _ = (liveEntries env place (after env place first steps ⟨.fresh, world⟩)).map
          Catalog.unnamed := by
        cases liveEntries env place (after env place first steps ⟨.fresh, world⟩) with
        | error fault => rfl
        | ok catalog => exact congrArg Except.ok (Catalog.unnamed_rename _ catalog)

namespace Sample

/-- A search that brings the project up to date. -/
def request : SearchRequest :=
  ⟨.text "x", .int 5, .null, .null, false, true, .int 5⟩

/-- The project is indexed, all of its files go, and after a while it is searched. -/
def removal (now : Int) : List Step :=
  [.index false "/project" (.bool true), .edit (some (.folder [])) now, .search false request]

theorem allAbout_removal (name : String) (now : Int) :
    AllAbout environment place name (removal now) started := by
  have rest {state : ServerState} (current : state.server.current = some place.toString) :
      AllAbout environment place name [.edit (some (.folder [])) now, .search false request] state :=
    ⟨trivial, .current current, trivial⟩
  obtain ⟨_, _, _, _, server, _, world', ran, -, attended, -⟩ := call_started (.text name)
  have taken : (Step.index false "/project" (.bool true)).take environment place name started =
      ⟨server, world'⟩ := congrArg Prod.snd ran
  refine ⟨(World.eq_of_resolve (resolve_project _)).2, ?_⟩
  rw [taken]
  exact rest attended.current

theorem untold_started (name : String) : Untold environment place name started.world := by
  intro file member stored value found
  have missing : started.world.disk.find? (spotOf started.world.workingDirectory file) = none := by
    rcases List.mem_cons.mp member with rfl | last
    · rfl
    · rw [List.mem_singleton.mp last]
      rfl
  rw [missing] at found
  cases found

end Sample

open Sample in
/-- Two names that are not that of the folder, for a project of which all files go. -/
theorem removal_is_equal_up_to_project_name :
    (liveEntries environment place (after environment place "second" (removal 0) started)).map
        Catalog.unnamed =
      (liveEntries environment place (after environment place "first" (removal 0) started)).map
        Catalog.unnamed :=
  live_entries_are_equal_up_to_project_name ⟨rfl, by decide⟩ wellFormed_started (by decide)
    ⟨by decide, by decide⟩ ⟨by decide, by decide⟩ ⟨untold_started _, untold_started _⟩
    (allAbout_removal _ 0)

end CodeAtlas
