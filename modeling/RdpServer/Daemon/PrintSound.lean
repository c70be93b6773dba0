import RdpServer.Daemon.FsPairing

/-!
# Print jobs reach their printers

A print job whose requests succeed asks for one CREATE, for the slices of its spool at
consecutive offsets and for one CLOSE. The requests it has made are a beginning of these
(`Prints.under`), whatever else the worker does meanwhile (`print_jobs_intact`). When any
request fails the worker frees the slot of the job, and the file stays open.
-/

namespace RdpServer.Daemon

open Channels Session List PrintProgress

inductive Slices (fileId : UInt32) : Nat → Bytes → List PrintRequest → Prop
  | nothing (off : Nat) : Slices fileId off [] []
  | more {off : Nat} {slice rest : Bytes} {writes : List PrintRequest} (some : slice ≠ [])
      (others : Slices fileId (off + slice.length) rest writes) :
      Slices fileId off (slice ++ rest) (.write fileId off slice :: writes)

def slicesFrom (fileId : UInt32) (spool : Bytes) (off : Nat) : List PrintRequest :=
  if off < spool.length then
    .write fileId off ((spool.drop off).take rdpdrPrintChunk) ::
      slicesFrom fileId spool (off + rdpdrPrintChunk)
  else []
termination_by spool.length - off
decreasing_by
  rw [rdpdrPrintChunk]
  omega

variable {spool : Bytes} (fileId : UInt32)

theorem slicesFrom_of_end {off : Nat} (done : ¬ off < spool.length) :
    slicesFrom fileId spool off = [] := by
  rw [slicesFrom, if_neg done]

theorem slices_slicesFrom (spool : Bytes) (off : Nat) :
    Slices fileId off (spool.drop off) (slicesFrom fileId spool off) := by
  induction left : spool.length - off using Nat.strongRecOn generalizing off with
  | _ left ih =>
    subst left
    rw [slicesFrom]
    by_cases more : off < spool.length
    · rw [if_pos more]
      have split : spool.drop off = (spool.drop off).take rdpdrPrintChunk ++
          spool.drop (off + rdpdrPrintChunk) := by
        rw [← drop_drop, take_append_drop]
      have length : ((spool.drop off).take rdpdrPrintChunk).length =
          min rdpdrPrintChunk (spool.length - off) := by
        rw [length_take, length_drop]
      have positive : 0 < rdpdrPrintChunk := by decide
      nth_rewrite 1 [split]
      refine .more (ne_nil_of_length_pos (by omega)) ?_
      by_cases full : rdpdrPrintChunk ≤ spool.length - off
      · rw [length, min_eq_left full]
        exact ih _ (by omega) _ rfl
      · have nothing : spool.drop (off + rdpdrPrintChunk) = [] := drop_eq_nil_of_le (by omega)
        rw [slicesFrom_of_end _ (by omega), nothing]
        exact .nothing _
    · rw [if_neg more, drop_eq_nil_of_le (Nat.not_lt.1 more)]
      exact .nothing off

def whole (fileId : UInt32) (spool : Bytes) : List PrintRequest :=
  .create :: (slicesFrom fileId spool 0 ++ [.close fileId])

def returned : List DrReply → UInt32
  | [] => 0
  | reply :: _ => if reply.2.length ≥ 4 then UInt32.ofNat (Rdpdr.ld32 reply.2 0) else 0

theorem slicesFrom_writing (j : PrintProgress) (left : j.off < j.spool.length) :
    [j.writing.2] ++ slicesFrom j.fileId j.spool j.writing.1.written.off =
      slicesFrom j.fileId j.spool j.off := by
  have off : j.writing.1.written.off = j.off +
      if j.spool.length - j.off > rdpdrPrintChunk then rdpdrPrintChunk
      else j.spool.length - j.off := rfl
  rw [off]
  conv_rhs => rw [slicesFrom, if_pos left]
  by_cases more : j.spool.length - j.off > rdpdrPrintChunk
  · rw [if_pos more]
    rfl
  · rw [if_neg more, slicesFrom_of_end _ (by omega), slicesFrom_of_end _ (by omega)]
    rfl

def PrintRequest.isWrite : PrintRequest → Bool
  | write _ _ _ => true
  | _ => false

def PrintRequest.isClose : PrintRequest → Bool
  | close _ => true
  | _ => false

theorem isWrite_of_mem {fileId : UInt32} {off : Nat} {request : PrintRequest}
    (member : request ∈ slicesFrom fileId spool off) : request.isWrite = true := by
  have slices := slices_slicesFrom fileId spool off
  generalize slicesFrom fileId spool off = writes at slices member
  generalize spool.drop off = rest at slices
  induction slices with
  | nothing off => exact (not_mem_nil member).elim
  | more _ _ ih =>
    rcases mem_cons.1 member with rfl | later
    · rfl
    · exact ih later

def closes (requests : List PrintRequest) : List PrintRequest :=
  requests.filter PrintRequest.isClose

theorem closes_slicesFrom (spool : Bytes) (off : Nat) :
    closes (slicesFrom fileId spool off) = [] := by
  refine filter_eq_nil_iff.2 fun request member isClose => ?_
  have isWrite := isWrite_of_mem member
  cases request with
  | create => cases isWrite
  | write fileId offset data => cases isClose
  | close fileId => cases isWrite

theorem closes_whole (spool : Bytes) : closes (whole fileId spool) = [.close fileId] := by
  have slices := closes_slicesFrom fileId spool 0
  rw [closes] at slices
  rw [closes, whole, filter_cons_of_neg (by decide), filter_append, slices]
  rfl

/-- Where a job is: the requests it has made are those of an undisturbed job, up to the
one that it waits for. -/
inductive Stage (spool : Bytes) (replies : List DrReply) (requests : List PrintRequest) :
    PrintProgress → Prop
  | creating {deviceId : Channels.DeviceId} (none : replies = []) (first : requests = [.create]) :
      Stage spool replies requests (.start deviceId spool)
  | writing {j : PrintProgress} (state : j.state = .write) (isSpool : j.spool = spool)
      (some : replies ≠ []) (file : j.fileId = returned replies)
      (so : requests ++ slicesFrom j.fileId spool j.written.off =
        .create :: slicesFrom j.fileId spool 0) :
      Stage spool replies requests j
  | closing {j : PrintProgress} (state : j.state = .close) (isSpool : j.spool = spool)
      (some : replies ≠ []) (file : j.fileId = returned replies)
      (all : requests = whole j.fileId spool) : Stage spool replies requests j

/-- A job that goes on has got nothing but success, one reply less than it made
requests. -/
structure Under (spool : Bytes) (replies : List DrReply) (requests : List PrintRequest)
    (j : PrintProgress) : Prop where
  succeeded : ∀ reply ∈ replies, reply.1 = statusSuccess
  count : requests.length = replies.length + 1
  stage : Stage spool replies requests j

variable {replies : List DrReply}

theorem returned_append (some : replies ≠ []) (reply : DrReply) :
    returned (replies ++ [reply]) = returned replies := by
  obtain ⟨first, rest, rfl⟩ := exists_cons_of_ne_nil some
  rfl

variable {requests : List PrintRequest} {j : PrintProgress}

theorem Stage.goes (stage : Stage spool replies requests j) {reply : DrReply}
    {after : PrintProgress × PrintRequest} (how : j.Goes reply.2 after) :
    Stage spool (replies ++ [reply]) (requests ++ [after.2]) after.1 := by
  have some : replies ++ [reply] ≠ [] := append_ne_nil_of_right_ne_nil _ (cons_ne_nil _ _)
  cases stage with
  | creating none first =>
    subst none first
    rename_i deviceId
    have file : ((start deviceId spool).opened reply.2).fileId = returned [reply] := by
      rw [opened, returned]
      split_ifs <;> rfl
    have isSpool : ((start deviceId spool).opened reply.2).spool = spool :=
      opened_spool
    have begin : ((start deviceId spool).opened reply.2).off = 0 := by
      rw [opened]
      split_ifs <;> rfl
    cases how with
    | closesEmpty _ empty =>
      refine .closing rfl isSpool some file ?_
      have nothing : ¬ 0 < spool.length := by
        rw [isSpool] at empty
        omega
      rw [whole, slicesFrom_of_end _ nothing]
      rfl
    | writesFirst _ isSome =>
      refine .writing rfl isSpool some file ?_
      have slice := slicesFrom_writing ((start deviceId spool).opened reply.2)
        (by omega)
      rw [isSpool, begin] at slice
      exact congrArg (.create :: ·) slice
    | writesOn isWrite | closes isWrite => cases isWrite
  | writing state isSpool isSome file so =>
    cases how with
    | closesEmpty isCreate | writesFirst isCreate => rw [state] at isCreate; cases isCreate
    | writesOn _ left =>
      refine .writing rfl isSpool some (file.trans (returned_append isSome reply).symm) ?_
      have slice := slicesFrom_writing j.written left
      rw [append_assoc]
      rw [← isSpool] at so ⊢
      exact (congrArg (requests ++ ·) slice).trans so
    | closes _ done =>
      refine .closing rfl isSpool some (file.trans (returned_append isSome reply).symm) ?_
      have last : slicesFrom j.fileId spool j.written.off = [] :=
        slicesFrom_of_end _ (isSpool ▸ done)
      rw [last, append_nil] at so
      rw [so]
      rfl
  | closing state isSpool isSome file all =>
    cases how with
    | closesEmpty isCreate | writesFirst isCreate => rw [state] at isCreate; cases isCreate
    | writesOn isWrite | closes isWrite => rw [state] at isWrite; cases isWrite

variable {deviceId : Channels.DeviceId}

/-- **A job under way.** -/
theorem Prints.under {stage : Option PrintProgress}
    (prints : Prints (.start deviceId spool) replies stage requests) (isAt : stage = some j) :
    Under spool replies requests j := by
  induction prints generalizing j with
  | starts =>
    cases isAt
    exact ⟨nofun, rfl, .creating rfl rfl⟩
  | @goes replies before after requests reply request _ next ih =>
    cases isAt
    have earlier := ih rfl
    obtain ⟨success, how⟩ := next_eq_some next
    refine ⟨?_, ?_, earlier.stage.goes how⟩
    · intro other member
      rcases mem_append.1 member with old | new
      · exact earlier.succeeded other old
      · rw [mem_singleton.1 new]
        exact success
    · rw [length_append, length_append, earlier.count]
      rfl
  | ends _ _ => cases isAt

/-- **A job that is over** has failed, or its CLOSE has been answered. -/
theorem Prints.ended (prints : Prints (.start deviceId spool) replies none requests) :
    ∃ earlier reply j, replies = earlier ++ [reply] ∧ Under spool earlier requests j ∧
      (reply.1 ≠ statusSuccess ∨ j.state = .close) := by
  cases prints with
  | @ends earlier j _ reply before none =>
    exact ⟨earlier, reply, j, rfl, before.under rfl, next_eq_none.1 none⟩

theorem Under.begins (under : Under spool replies requests j) :
    requests <+: whole (returned replies) spool := by
  cases under.stage with
  | creating none first =>
    rw [first]
    exact ⟨_, rfl⟩
  | writing state isSpool some file so =>
    rw [← file, whole, ← cons_append, ← so, append_assoc]
    exact prefix_append _ _
  | closing state isSpool some file all =>
    have same : requests = whole (returned replies) spool := by rw [all, file]
    exact same ▸ prefix_refl _

end RdpServer.Daemon

namespace RdpServer.Daemon

open Channels Session Ledger List

variable {requests : List PrintRequest} {spool : Bytes} {replies : List DrReply}
  {deviceId : Channels.DeviceId} {stage : Option PrintProgress}

theorem Prints.whole_take (prints : Prints (.start deviceId spool) replies stage requests)
    (success : ∀ reply ∈ replies, reply.1 = statusSuccess) :
    requests = (whole (returned replies) spool).take (replies.length + 1) ∧
      (stage = none ↔ replies.length = (whole (returned replies) spool).length) := by
  cases stage with
  | some j =>
    have under := prints.under rfl
    have begins := under.begins
    refine ⟨?_, iff_of_false (Option.some_ne_none j) ?_⟩
    · rw [← under.count]
      exact prefix_iff_eq_take.1 begins
    · have fits := begins.length_le
      rw [under.count] at fits
      omega
  | none =>
    obtain ⟨earlier, reply, j, rfl, under, failed | closing⟩ := prints.ended
    · exact (failed (success reply (by simp))).elim
    · have count := under.count
      cases under.stage with
      | creating none first => cases closing
      | writing state => rw [state] at closing; cases closing
      | closing state isSpool isSome file all =>
        rw [all, file] at count
        rw [returned_append isSome, length_append, length_singleton, ← count]
        refine ⟨?_, iff_of_true rfl rfl⟩
        rw [take_of_length_le (Nat.le_succ _), all, file]

theorem Under.failed_write {j : PrintProgress} (under : Under spool replies requests j)
    (isSome : replies ≠ []) (writing : j.state ≠ .close) :
    closes requests = [] ∧ ∃ front write, requests = front ++ [write] ∧ write.isWrite = true := by
  cases under.stage with
  | creating none first => exact (isSome none).elim
  | closing state => exact (writing state).elim
  | writing state isSpool _ file so =>
    have closesNone : closes (.create :: slicesFrom j.fileId spool 0) = [] := by
      exact closes_slicesFrom j.fileId spool 0
    refine ⟨?_, ?_⟩
    · rw [← so, closes, filter_append] at closesNone
      exact (append_eq_nil_iff.1 closesNone).1
    · -- the last request is not the CREATE, which has been answered
      have count := under.count
      obtain ⟨first, rest, rfl⟩ : ∃ first rest, requests = first :: rest := by
        refine exists_cons_of_ne_nil (ne_nil_of_length_pos ?_)
        omega
      obtain ⟨-, slices⟩ := cons.inj so
      have more : rest ≠ [] := by
        rintro rfl
        exact isSome (eq_nil_of_length_eq_zero (Nat.succ.inj count).symm)
      refine ⟨first :: rest.dropLast, rest.getLast more, ?_, ?_⟩
      · rw [cons_append, dropLast_append_getLast]
      · refine isWrite_of_mem (?_ : _ ∈ slicesFrom j.fileId spool 0)
        rw [← slices]
        exact mem_append_left _ (getLast_mem more)

theorem Under.closes_cases {j : PrintProgress} (under : Under spool replies requests j) :
    closes requests = [] ∨ replies ≠ [] ∧ closes requests = [.close (returned replies)] := by
  cases under.stage with
  | creating none first =>
    rw [first]
    exact .inl rfl
  | writing state isSpool isSome file so =>
    exact .inl (under.failed_write isSome (by rw [state]; nofun)).1
  | closing state isSpool isSome file all =>
    rw [all, file]
    exact .inr ⟨isSome, closes_whole _ _⟩

def writesSucceed (requests : List PrintRequest) (replies : List DrReply) : Prop :=
  ∀ pair ∈ requests.zip replies, pair.1.isWrite = true → pair.2.1 = statusSuccess

theorem Prints.closes_iff (prints : Prints (.start deviceId spool) replies none requests)
    {data : Bytes} (opened : replies.head? = some (statusSuccess, data)) :
    closes requests = [.close (returned replies)] ↔ writesSucceed requests replies := by
  obtain ⟨earlier, reply, j, rfl, under, ended⟩ := prints.ended
  have count := under.count
  by_cases closing : j.state = .close
  · cases under.stage with
    | creating none first => cases closing
    | writing state => rw [state] at closing; cases closing
    | closing state isSpool isSome file all =>
      rw [returned_append isSome, all, file]
      refine iff_of_true (closes_whole _ _) ?_
      -- every reply but that to the CLOSE is a success
      rw [all, file, whole] at count
      intro pair member isWrite
      rw [whole, ← cons_append, zip_append (by simpa using count)] at member
      rcases mem_append.1 member with before | last
      · exact under.succeeded _ (of_mem_zip before).2
      · rw [mem_singleton.1 last] at isWrite
        cases isWrite
  · have failed := ended.resolve_right closing
    have isSome : earlier ≠ [] := by
      rintro rfl
      exact failed (congrArg Prod.fst (Option.some.inj opened))
    obtain ⟨closesNone, front, write, rfl, isWrite⟩ := under.failed_write isSome closing
    rw [closesNone]
    refine iff_of_false (cons_ne_nil _ _).symm fun succeed => failed ?_
    refine succeed (write, reply) ?_ isWrite
    rw [length_append] at count
    rw [zip_append (Nat.succ.inj count)]
    exact mem_append_right _ (mem_singleton_self _)

theorem Prints.closes_cases (prints : Prints (.start deviceId spool) replies stage requests) :
    closes requests = [] ∨ closes requests = [.close (returned replies)] := by
  cases stage with
  | some j => exact (prints.under rfl).closes_cases.imp_right And.right
  | none =>
    obtain ⟨earlier, reply, j, rfl, under, _⟩ := prints.ended
    refine under.closes_cases.imp_right fun ⟨isSome, once⟩ => ?_
    rw [returned_append isSome]
    exact once

theorem Explained.prints {dr : DrState} {record : DrRecord} (explained : Explained dr record)
    (cause : record.cause = .printJob deviceId spool) (started : record.outputs ≠ []) :
    ∃ stage requests, Prints (.start deviceId spool) record.replies stage requests ∧
      Carried deviceId record.outputs requests ∧ (record.waiting = none ↔ stage = none) := by
  unfold Explained at explained
  rw [cause] at explained
  cases explained with
  | dropped outputs => exact (started outputs).elim
  | goes j p requests held waiting prints carried =>
    exact ⟨_, requests, prints, carried, by rw [waiting]; exact iff_of_false nofun nofun⟩
  | ended requests waiting prints carried =>
    exact ⟨_, requests, prints, carried, iff_of_true waiting rfl⟩

/-- **Print jobs reach their printers.** A job whose requests have been answered with
success has sent one CREATE, the slices of its spool on the file id that its CREATE has
returned, and one CLOSE, up to the request that it waits for; and a slot is taken only by
a job that waits. -/
theorem print_jobs_intact {dr : DrState} (begins : dr.Begins) {events : List DrEvent}
    (allowed : Runs.Along DrTrace.step Allowed { dr := dr } events) {t : DrTrace}
    (run : events.foldl DrTrace.step { dr := dr } = t) :
    t.book.strays = [] ∧ t.book.records.map Record.cause = events.filter DrEvent.isCause ∧
      (∀ record ∈ t.book.records, ∀ deviceId spool, record.cause = .printJob deviceId spool →
        record.outputs ≠ [] → (∀ reply ∈ record.replies, reply.1 = statusSuccess) →
        ∃ writes, Slices (returned record.replies) 0 spool writes ∧ Carried deviceId record.outputs
            ((.create :: (writes ++ [.close (returned record.replies)])).take
              (record.replies.length + 1)) ∧
          (record.waiting = none ↔ record.replies.length = writes.length + 2)) ∧
      (∀ j, t.dr.jobs.Holds j → ∃ record ∈ t.book.records, record.waiting = some j.cid ∧
        ∃ deviceId spool, record.cause = .printJob deviceId spool) ∧
      Slots.KeyUnique PrintJob.cid t.dr.jobs := by
  have accounted := begins.accounted_run allowed
  have causes := map_cause_run { dr := dr } events
  rw [run] at accounted causes
  refine ⟨accounted.strays, causes, ?_, accounted.jobsAwaited, accounted.jobsUnique⟩
  intro record member deviceId spool cause started success
  obtain ⟨stage, requests, prints, carried, waiting⟩ :=
    (accounted.each record member).prints cause started
  obtain ⟨so, isOver⟩ := prints.whole_take success
  refine ⟨slicesFrom (returned record.replies) spool 0, slices_slicesFrom _ spool 0, ?_, ?_⟩
  · rw [so] at carried
    exact carried
  · rw [waiting, isOver, whole, length_cons, length_append]
    rfl

/-- A job of two WRITEs, with an answer to each request. -/
def printTwice : List DrEvent :=
  [.printJob 5 (replicate 9000 7), .completion 5 0 0 [8, 0, 0, 0],
    .completion 5 1 0 [0x40, 0x1F, 0, 0, 0], .completion 5 2 0 [0xE8, 3, 0, 0, 0],
    .completion 5 3 0 [0, 0, 0, 0]]

def printedTwice : DrTrace := printTwice.foldl DrTrace.step { dr := printerAndDrive }

theorem allowed_printTwice : Runs.Along DrTrace.step Allowed { dr := printerAndDrive } printTwice :=
  by decide +kernel

theorem printedTwice_records : printedTwice.book.records.map Record.cause =
      [.printJob 5 (replicate 9000 7)] ∧
    ∀ record ∈ printedTwice.book.records, record.outputs ≠ [] ∧
      record.replies.map Prod.fst = replicate 4 statusSuccess ∧
      returned record.replies = 8 ∧ record.waiting = none := by
  exact ⟨map_cause_run _ _, by decide +kernel⟩

theorem print_jobs_intact_two_writes :
    ∃ record ∈ printedTwice.book.records, record.cause = .printJob 5 (replicate 9000 7) ∧
      ∃ writes, writes.length = 2 ∧ Slices 8 0 (replicate 9000 7) writes ∧
        Carried 5 record.outputs (.create :: (writes ++ [.close 8])) := by
  obtain ⟨record, member, cause⟩ := exists_of_mem_map (printedTwice_records.1 ▸ mem_cons_self)
  obtain ⟨started, replies, fileId, isOver⟩ := printedTwice_records.2 record member
  have four : record.replies.length = 4 := by simpa using congrArg length replies
  obtain ⟨-, -, intact, -⟩ := print_jobs_intact ⟨rfl, rfl, rfl⟩ allowed_printTwice rfl
  obtain ⟨writes, slices, carried, all⟩ := intact record member 5 _ cause started
    fun reply among => eq_of_mem_replicate (replies ▸ mem_map_of_mem among)
  have two : writes.length = 2 := by
    have answered := all.1 isOver
    omega
  rw [fileId] at slices carried
  rw [four, take_of_length_le (by simp [two])] at carried
  exact ⟨record, member, cause, writes, two, slices, carried⟩

/-- **A print job for a drive is stuck**: its CREATE succeeds, nothing else is sent, and its
slot stays taken while it waits for nothing. -/
theorem print_job_on_drive_stuck :
    printerAndDrive.Begins ∧
      ∃ t, [.printJob 7 [1, 2], .completion 7 0 0 [8, 0, 0, 0]].foldl DrTrace.step
          { dr := printerAndDrive } = t ∧
        t.book.records.map (fun record => (record.cause, record.replies, record.waiting)) =
          [(.printJob 7 [1, 2], [(0, [8, 0, 0, 0])], none)] ∧
        t.book.records.map (fun record => record.outputs.filter fun o => o.rsp?.isNone) =
          [[.irp { cid := 0, irp := PrintRequest.create.irp 7 0 }]] ∧
        (t.dr.jobs.entry 0).isSome = true := by
  refine ⟨⟨rfl, rfl, rfl⟩, _, rfl, ?_⟩
  decide

/-- **An opened printer is closed exactly if no WRITE fails**, and never twice. -/
theorem opened_printers_closed_iff {dr : DrState} (begins : dr.Begins) {events : List DrEvent}
    (allowed : Runs.Along DrTrace.step Allowed { dr := dr } events) {record : DrRecord}
    (member : record ∈ (events.foldl DrTrace.step { dr := dr }).book.records)
    {deviceId : Channels.DeviceId} {spool : Bytes}
    (cause : record.cause = .printJob deviceId spool) (started : record.outputs ≠ []) :
    ∃ requests, Carried deviceId record.outputs requests ∧
      (closes requests = [] ∨ closes requests = [.close (returned record.replies)]) ∧
      (record.waiting = none → record.replies.head?.map Prod.fst = some statusSuccess →
        (closes requests = [.close (returned record.replies)] ↔
          writesSucceed requests record.replies)) := by
  obtain ⟨stage, requests, prints, carried, waiting⟩ :=
    ((begins.accounted_run allowed).each record member).prints cause started
  refine ⟨requests, carried, prints.closes_cases, fun isOver opened => ?_⟩
  obtain ⟨⟨status, data⟩, first, rfl⟩ := Option.map_eq_some_iff.1 opened
  rw [waiting.1 isOver] at prints
  exact prints.closes_iff first

theorem opened_printers_closed_iff_two_writes :
    ∃ record ∈ printedTwice.book.records, ∃ requests, Carried 5 record.outputs requests ∧
      (closes requests = [.close 8] ↔ writesSucceed requests record.replies) := by
  obtain ⟨record, member, cause⟩ := exists_of_mem_map (printedTwice_records.1 ▸ mem_cons_self)
  obtain ⟨started, replies, fileId, isOver⟩ := printedTwice_records.2 record member
  obtain ⟨requests, carried, -, iff⟩ :=
    opened_printers_closed_iff ⟨rfl, rfl, rfl⟩ allowed_printTwice member cause started
  rw [fileId] at iff
  refine ⟨record, member, requests, carried, iff isOver ?_⟩
  rw [← head?_map, replies]
  rfl

/-- **A WRITE that fails leaves the printer open**: the job is over and its slot is free, and
no CLOSE is sent. -/
theorem failed_write_not_closed :
    printerAndDrive.Begins ∧ ∃ t, [.printJob 5 [1, 2], .completion 5 0 0 [8, 0, 0, 0],
          .completion 5 1 statusUnsuccessful []].foldl DrTrace.step { dr := printerAndDrive } = t ∧
        t.book.records.map (fun record => (record.replies, record.outputs, record.waiting)) =
          [([(0, [8, 0, 0, 0]), (statusUnsuccessful, [])],
            [.irp { cid := 0, irp := PrintRequest.create.irp 5 0 },
              .irp { cid := 1, irp := (PrintRequest.write 8 0 [1, 2]).irp 5 1 }], none)] ∧
        t.dr.jobs = Slots.empty rdpdrMaxPrintJobs := by
  refine ⟨⟨rfl, rfl, rfl⟩, _, rfl, ?_⟩
  decide

end RdpServer.Daemon
