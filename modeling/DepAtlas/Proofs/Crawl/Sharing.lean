import DepAtlas.Crawl
import DepAtlas.Proofs.Dispatch.Outcomes
import DepAtlas.Proofs.Dispatch.Simulation

/-!
How a crawl shares out its work: one file after the other, or in an interleaving of workers. Either way the
work comes to an end, and what the steps of the processor keep holds then.
-/

namespace DepAtlas.Crawler

variable {σ ρ : Type} {processor : Processor σ ρ} {token : CancellationToken}
  {holds : σ → List WorkResult → Prop} {fit : WorkItem → ρ → Prop}

theorem keeps_process (keeps : processor.Keeps holds fit) {state : σ} {done : List WorkResult}
    (held : holds state done) (item : WorkItem) :
    holds (processor.process state item).1 (done ++ [item.result (processor.process state item).2]) := by
  unfold Processor.process
  split
  · rename_i prepared
    exact keeps.fails held prepared
  · rename_i prepared
    obtain ⟨held, fitting⟩ := keeps.prepares held prepared
    exact keeps.completes held fitting rfl

theorem process_incremental (coordinator : Coordinator) (fs : FileSystem) (item : WorkItem) :
    ((Processor.incremental fs).process coordinator item).1 =
        (coordinator.analyze fs item.path item.language).1 ∧
      (item.result ((Processor.incremental fs).process coordinator item).2).outcome =
        (coordinator.analyze fs item.path item.language).2.map fun analysis =>
          { dependencies := analysis.dependencies
            reused := analysis.reused
            state := some analysis.state } := by
  simp only [Processor.process, Processor.incremental]
  cases coordinator.analyze fs item.path item.language with
  | mk next answer =>
    cases answer with
    | error cause => exact ⟨rfl, rfl⟩
    | ok analysis => exact ⟨rfl, rfl⟩

/-- What holds from one analysis to the next is kept by the steps of an incremental crawl. -/
theorem keeps_of_analyze {fs : FileSystem} {holds : Coordinator → List WorkResult → Prop}
    (step : ∀ {coordinator done} (result : WorkResult), holds coordinator done →
      result.outcome = (coordinator.analyze fs result.item.path result.item.language).2.map (fun analysis =>
        { dependencies := analysis.dependencies
          reused := analysis.reused
          state := some analysis.state }) →
      holds (coordinator.analyze fs result.item.path result.item.language).1 (done ++ [result])) :
    (Processor.incremental fs).Keeps holds fun _ _ => True where
  fails := by
    intro state next item verdict done _ prepared
    cases prepared
  prepares := by
    intro state next item content done held prepared
    cases prepared
    exact ⟨held, trivial⟩
  completes := by
    intro state next item content verdict done held _ completed
    obtain ⟨isNext, isOutcome⟩ := process_incremental state fs item
    have processed : (Processor.incremental fs).process state item = (next, verdict) := completed
    rw [processed] at isNext isOutcome
    cases isNext
    exact step (item.result verdict) held isOutcome

theorem processSerial_cons (running : token.isCancelled = false) (item : WorkItem)
    (rest : List (Path × Language)) (state : σ) :
    processSerial token processor item.id ((item.path, item.language) :: rest) state =
      ((processSerial token processor (item.id + 1) rest (processor.process state item).1).1,
        (processSerial token processor (item.id + 1) rest (processor.process state item).1).2.map
          (item.result (processor.process state item).2 :: ·)) := by
  rw [processSerial, if_neg (by simp [running])]
  rfl

theorem processSerial_spec (keeps : processor.Keeps holds fit) {work : List (Path × Language)}
    {id : Nat} {state after : σ} {done results : List WorkResult} (held : holds state done)
    (worked : processSerial token processor id work state = (after, .ok results)) :
    holds after (done ++ results) ∧
      results.map (fun result => (result.item.path, result.item.language)) = work := by
  induction work generalizing id state done results with
  | nil =>
    cases worked
    exact ⟨(List.append_nil done).symm ▸ held, rfl⟩
  | cons file rest ih =>
    obtain ⟨path, language⟩ := file
    cases cancelled : token.isCancelled with
    | true =>
      rw [processSerial, if_pos cancelled] at worked
      cases worked
    | false =>
      let item : WorkItem := { id, path, language }
      rw [processSerial_cons cancelled item] at worked
      have next := keeps_process keeps held item
      cases continued : processSerial token processor (id + 1) rest
          (processor.process state item).1 with
      | mk last reply =>
        rw [continued] at worked
        cases reply with
        | error cause => cases worked
        | ok more =>
          cases worked
          obtain ⟨held, same⟩ := ih next continued
          rw [List.append_assoc] at held
          exact ⟨held, congrArg ((path, language) :: ·) same⟩

theorem exists_processSerial (running : token.isCancelled = false) (work : List (Path × Language))
    (id : Nat) (state : σ) :
    ∃ after results, processSerial token processor id work state = (after, .ok results) := by
  induction work generalizing id state with
  | nil => exact ⟨state, [], rfl⟩
  | cons file rest ih =>
    obtain ⟨path, language⟩ := file
    let item : WorkItem := { id, path, language }
    obtain ⟨after, results, continued⟩ := ih (id + 1) (processor.process state item).1
    refine ⟨after, item.result (processor.process state item).2 :: results, ?_⟩
    rw [processSerial_cons running item, continued]
    rfl

/-- Work that is given up has not begun. -/
theorem processSerial_error {work : List (Path × Language)} {id : Nat} {state after : σ} {cause : Failure}
    (failed : processSerial token processor id work state = (after, .error cause)) : after = state := by
  cases cancelled : token.isCancelled with
  | false =>
    obtain ⟨last, results, worked⟩ := exists_processSerial cancelled work id state
    cases failed.symm.trans worked
  | true =>
    cases work with
    | nil => cases failed
    | cons file rest =>
      rw [processSerial, if_pos cancelled] at failed
      cases failed
      rfl

/-- All files are submitted, unless the crawl is cancelled: then none is. -/
theorem submitFiles_spec {dispatcher : Dispatcher σ ρ} {begin session : Session σ ρ}
    (serves : dispatcher.Serves begin session) (work : List (Path × Language)) :
    (token.isCancelled = true ∧
      submitFiles token work dispatcher session.received = (dispatcher, .error .cancelled)) ∨
    ∃ after last, submitFiles token work dispatcher session.received = (after, .ok last.received) ∧
      after.processor = dispatcher.processor ∧ after.Serves begin last ∧
      last.accepted.map (fun item => (item.path, item.language)) =
        session.accepted.map (fun item => (item.path, item.language)) ++ work ∧
      last.discarded = session.discarded := by
  induction work generalizing dispatcher session with
  | nil => exact .inr ⟨dispatcher, session, rfl, rfl, serves, (List.append_nil _).symm, rfl⟩
  | cons file rest ih =>
    obtain ⟨path, language⟩ := file
    cases cancelled : token.isCancelled with
    | true =>
      refine .inl ⟨rfl, ?_⟩
      rw [submitFiles, if_pos cancelled]
    | false =>
      obtain ⟨queued, item, submitted, processor, rfl, rfl, served⟩ := serves.submit path language
      have step : submitFiles token ((item.path, item.language) :: rest) dispatcher session.received =
          submitFiles token rest queued.drainResults.1
            (session.received ++ queued.drainResults.2) := by
        rw [submitFiles, if_neg (by simp [cancelled]), submitted]
      rcases ih served.drainResults with ⟨isCancelled, -⟩ | ⟨after, last, rest, same, serves, all, kept⟩
      · rw [cancelled] at isCancelled
        cases isCancelled
      · refine .inr ⟨after, last, step.trans rest, same.trans processor, serves, ?_, kept⟩
        rw [all]
        simp [Dispatcher.within]

/-- A pool of workers gets its work done in some interleaving, unless the crawl is cancelled or the number
of workers is refused: then nothing has happened. -/
theorem processParallel_spec (crawler : Crawler) (processor : Processor σ ρ)
    (work : List (Path × Language)) (state : σ) :
    let performance := crawler.config.performance
    (∃ cause, crawler.processParallel processor work state = (state, .error cause) ∧
      (crawler.token.isCancelled = true ∨ performance.threadCount = 0 ∨
        Pool.maxThreads < performance.threadCount)) ∨
    ∃ after results, crawler.processParallel processor work state = (after, .ok results) ∧
      processor.Interleaves performance.threadCount performance.queueLimit state work after
        results := by
  intro performance
  by_cases bounds : performance.threadCount = 0 ∨ Pool.maxThreads < performance.threadCount
  · have refused : Pool.create performance.threadCount performance.queueLimit =
        .error (.invalidThreadCount performance.threadCount Pool.maxThreads) :=
      @if_pos _ _ bounds (Except DispatchError (Pool ρ)) _ _
    refine .inl ⟨.dispatch (.invalidThreadCount performance.threadCount Pool.maxThreads), ?_,
      .inr bounds⟩
    rw [processParallel, Dispatcher.create, refused]
    rfl
  · let pool : Pool ρ :=
      { threads := performance.threadCount, queue := WorkQueue.create performance.queueLimit }
    let started : Pool ρ :=
      { pool with started := true, workers := List.replicate performance.threadCount .idle }
    let dispatcher : Dispatcher σ ρ := { processor, state, pool := started, schedule := crawler.schedule }
    let begin : Session σ ρ := { state, pool }
    have created : Pool.create performance.threadCount performance.queueLimit = .ok pool :=
      if_neg bounds
    have begun : dispatcher.Serves begin { begin with pool := started } :=
      ⟨⟨[.start], rfl⟩, rfl, rfl, Pool.staffed_of_start created rfl, rfl, rfl⟩
    have launched : (Dispatcher.create processor state crawler.schedule performance.threadCount
        performance.queueLimit).bind Dispatcher.start = .ok dispatcher := by
      rw [Dispatcher.create, created]
      rfl
    -- Either the token stops the submissions, or all are in and the wait ends with every worker at rest.
    rcases @submitFiles_spec _ _ crawler.token _ _ _ begun work with
      ⟨cancelled, failed⟩ | ⟨after, last, submitted, same, serves, all, kept⟩
    · have idle : ∀ worker ∈ dispatcher.pool.workers, worker.isBusy = false := by
        intro worker member
        rw [List.eq_of_mem_replicate member]
        rfl
      refine .inl ⟨.cancelled, ?_, .inl cancelled⟩
      change submitFiles crawler.token work dispatcher [] = _ at failed
      simp only [processParallel]
      rw [launched]
      simp only [failed, Dispatcher.state_shutDown idle]
      rfl
    · have balanced := Session.balanced_begin state created
      obtain ⟨processor', waited, done⟩ := serves.wait balanced
      have drained := waited.drainResults
      obtain ⟨moves, ran⟩ := drained.led
      have unchanged : after.wait.1.drainResults.1.processor = processor := processor'.trans same
      rw [unchanged] at ran
      have rests := (balanced.run ran).rests done
      refine .inr ⟨after.wait.1.drainResults.1.shutDown.state,
        last.received ++ after.wait.1.drainResults.2, ?_, pool, moves, _, created, ran, all, kept, done,
        ?_, List.append_nil _⟩
      · change submitFiles crawler.token work dispatcher [] = _ at submitted
        simp only [processParallel]
        rw [launched]
        simp only [submitted]
      · exact (Dispatcher.state_shutDown rests.2).symm

/-- The files are worked on in the way that is set: one after the other, or in some interleaving. -/
def Handles (crawler : Crawler) (processor : Processor σ ρ) (work : List (Path × Language))
    (state after : σ) (results : List WorkResult) : Prop :=
  if crawler.isParallel then
    processor.Interleaves crawler.config.performance.threadCount crawler.config.performance.queueLimit
      state work after results
  else processSerial crawler.token processor 0 work state = (after, .ok results)

section Handles

variable {crawler : Crawler} {work : List (Path × Language)} {state after : σ}
  {results : List WorkResult}

/-- What the steps of the processor keep holds after the work, with one result for each file. -/
theorem Handles.spec (handles : crawler.Handles processor work state after results)
    (keeps : processor.Keeps holds fit) (start : holds state []) :
    (∃ done, holds after done ∧ done.Perm results) ∧
      (results.map fun result => (result.item.path, result.item.language)).Perm work := by
  unfold Handles at handles
  split at handles
  · exact ⟨keeps.interleaves handles start, handles.work_perm⟩
  · obtain ⟨held, same⟩ := processSerial_spec keeps start handles
    exact ⟨⟨results, held, .rfl⟩, same ▸ .rfl⟩

theorem Handles.work_perm (handles : crawler.Handles processor work state after results) :
    (results.map fun result => (result.item.path, result.item.language)).Perm work :=
  (handles.spec (Processor.keeps_true processor) trivial).2

theorem exists_handles_of_processAll (worked : crawler.processAll processor work state =
      (after, .ok results)) :
    ∃ found, crawler.Handles processor work state after found ∧
      results = sortByPath (fun result => result.item.path) found := by
  unfold processAll at worked
  unfold Handles
  cases mode : crawler.isParallel with
  | true =>
    simp only [mode, if_true] at worked ⊢
    rcases processParallel_spec crawler processor work state with
      ⟨cause, failed, -⟩ | ⟨last, found, done, interleaves⟩
    · rw [failed] at worked
      cases worked
    · rw [done] at worked
      cases worked
      exact ⟨found, interleaves, rfl⟩
  | false =>
    simp only [mode, Bool.false_eq_true, if_false] at worked ⊢
    cases done : processSerial crawler.token processor 0 work state with
    | mk last reply =>
      rw [done] at worked
      cases reply with
      | error cause => cases worked
      | ok found =>
        cases worked
        exact ⟨found, rfl, rfl⟩

theorem processAll_error {cause : Failure}
    (failed : crawler.processAll processor work state = (after, .error cause)) : after = state := by
  unfold processAll at failed
  cases mode : crawler.isParallel with
  | true =>
    simp only [mode, if_true] at failed
    rcases processParallel_spec crawler processor work state with
      ⟨other, begun, -⟩ | ⟨last, found, done, -⟩
    · rw [begun] at failed
      cases failed
      rfl
    · rw [done] at failed
      cases failed
  | false =>
    simp only [mode, Bool.false_eq_true, if_false] at failed
    cases done : processSerial crawler.token processor 0 work state with
    | mk last reply =>
      rw [done] at failed
      cases reply with
      | ok found => cases failed
      | error other =>
        cases failed
        exact processSerial_error done

/-- A crawl that is not cancelled, with a number of workers that is not refused, gets its work done. -/
theorem exists_processAll (running : crawler.token.isCancelled = false)
    (positive : 1 ≤ crawler.config.performance.threadCount)
    (bounded : crawler.config.performance.threadCount ≤ Pool.maxThreads) (processor : Processor σ ρ)
    (work : List (Path × Language)) (state : σ) :
    ∃ after results, crawler.processAll processor work state = (after, .ok results) := by
  unfold processAll
  cases mode : crawler.isParallel with
  | true =>
    simp only [if_true]
    rcases processParallel_spec crawler processor work state with
      ⟨cause, -, impossible⟩ | ⟨last, found, done, -⟩
    · rw [running] at impossible
      simp only [Bool.false_eq_true, false_or] at impossible
      omega
    · rw [done]
      exact ⟨last, _, rfl⟩
  | false =>
    simp only [Bool.false_eq_true, if_false]
    obtain ⟨last, found, done⟩ := exists_processSerial running work 0 state
    rw [done]
    exact ⟨last, _, rfl⟩

end Handles

section Work

variable {crawler : Crawler} {fs after : FileSystem} {found : Discovered} {outcome : Outcome}

/-- What the work leaves behind where it succeeds, by the two ways to work on files. -/
theorem work_cases (worked : crawler.work fs found = (after, .ok outcome)) :
    ∃ files, crawler.createCache = .ok files ∧
      ((crawler.config.cache.isIncremental = true ∧ ∃ coordinator results,
          crawler.Handles (Processor.incremental fs) found.work (crawler.createCoordinator fs files)
            coordinator results ∧
          outcome = (takeStock coordinator fs found.walked.files
            (sortByPath (fun result => result.item.path) results)).2) ∨
        (crawler.config.cache.isIncremental = false ∧ ∃ state results,
          crawler.Handles (Processor.extraction fs crawler.patterns crawler.layers) found.work { files }
            state results ∧
          outcome = {
            results := sortByPath (fun result => result.item.path) results
            methods := state.methods
            files := state.files })) := by
  cases created : crawler.createCache with
  | error cause =>
    simp only [work, created] at worked
    cases worked
  | ok files =>
    refine ⟨files, rfl, ?_⟩
    cases mode : crawler.config.cache.isIncremental with
    | true =>
      simp only [work, created, mode, if_true] at worked
      cases processed : crawler.processAll (Processor.incremental fs) found.work
          (crawler.createCoordinator fs files) with
      | mk coordinator reply =>
        rw [processed] at worked
        cases reply with
        | error cause => cases worked
        | ok sorted =>
          obtain ⟨results, handles, rfl⟩ := exists_handles_of_processAll processed
          cases worked
          exact .inl ⟨rfl, coordinator, results, handles, rfl⟩
    | false =>
      simp only [work, created, mode, Bool.false_eq_true, if_false] at worked
      cases processed : crawler.processAll (Processor.extraction fs crawler.patterns crawler.layers)
          found.work { files } with
      | mk state reply =>
        rw [processed] at worked
        cases reply with
        | error cause => cases worked
        | ok sorted =>
          obtain ⟨results, handles, rfl⟩ := exists_handles_of_processAll processed
          cases worked
          exact .inr ⟨rfl, state, results, handles, rfl⟩

/-- A crawl that is not cancelled, with limits that are not refused, gets its work done, and leaves the file
system as it is unless it is incremental. -/
theorem exists_work {files : Option FileCache} (created : crawler.createCache = .ok files)
    (running : crawler.token.isCancelled = false)
    (positive : 1 ≤ crawler.config.performance.threadCount)
    (bounded : crawler.config.performance.threadCount ≤ Pool.maxThreads) (fs : FileSystem)
    (found : Discovered) :
    ∃ after outcome, crawler.work fs found = (after, .ok outcome) ∧
      (crawler.config.cache.isIncremental = false → after = fs) := by
  cases mode : crawler.config.cache.isIncremental with
  | true =>
    obtain ⟨coordinator, results, processed⟩ := exists_processAll running positive bounded
      (Processor.incremental fs) found.work (crawler.createCoordinator fs files)
    simp only [work, created, mode, if_true, processed]
    exact ⟨_, _, rfl, fun impossible => nomatch impossible⟩
  | false =>
    obtain ⟨state, results, processed⟩ := exists_processAll running positive bounded
      (Processor.extraction fs crawler.patterns crawler.layers) found.work { files }
    simp only [work, created, mode, Bool.false_eq_true, if_false, processed]
    exact ⟨_, _, rfl, fun _ => rfl⟩

end Work

end DepAtlas.Crawler
