import Mathlib.Tactic.Common
import TensorLowering.CommandLine.Host
import TensorLowering.Proofs.Dictionaries

/-! # The files of a run

Writing changes at most one file or stream, and a file that was written is read back under the path
it was written to (`TensorLowering.CommandLine.Host.written_of_write`): a path that leads somewhere
still leads there when a file appears in the working directory
(`TensorLowering.CommandLine.Host.follow_put`). So a run of the command that fails leaves the files
as they were and shows nothing but its complaint (`TensorLowering.CommandLine.Host.run_of_failed`),
and a run that succeeds delivers the output for the plan that it read
(`TensorLowering.CommandLine.Host.run_of_succeeded`,
`TensorLowering.CommandLine.Host.read_after_run`).
-/

namespace TensorLowering

namespace CommandLine

namespace Host

variable {host after : Host} {name text : String}

/-! ### Following paths in a directory that grows -/

theorem entry?_put {folder : Folder} {next : String} {found : Place}
    (listed : host.entry? folder next = some found) :
    entry? (host.put name text) folder next = some found := by
  cases folder with
  | system names => exact listed
  | working =>
      simp only [ entry?, put, Dict.contains, Dict.find?_insert] at listed ⊢
      split_ifs at listed ⊢ <;> simp_all

/-- What a name leads to does not change when a file is put into the working directory. -/
theorem step_put {place found : Place} {next : String} (led : host.step place next = .ok found) :
    (host.put name text).step place next = .ok found := by
  cases place with
  | file _ => cases led
  | device _ => cases led
  | folder folder =>
      simp only [step] at led ⊢
      split_ifs at led ⊢ with current above long
      · exact led
      · exact led
      · cases listed : host.entry? folder next with
        | none =>
            rw [listed] at led
            cases led
        | some place =>
            rw [listed] at led
            rw [entry?_put listed]
            exact led

theorem foldlM_step_put {names : List String} {start found : Place}
    (led : names.foldlM host.step start = .ok found) :
    names.foldlM (host.put name text).step start = .ok found := by
  induction names generalizing start with
  | nil => exact led
  | cons next rest ih =>
      rw [List.foldlM_cons] at led ⊢
      cases first : host.step start next with
      | error fault =>
          rw [first] at led
          cases led
      | ok place =>
          rw [first] at led
          rw [step_put first]
          exact ih led

/-- Where a path leads does not change when a file is put into the working directory. -/
theorem follow_put {start : Folder} {names : List String} {found : Place}
    (led : host.follow start names = .ok found) :
    (host.put name text).follow start names = .ok found :=
  foldlM_step_put led

theorem follow_concat {start : Folder} {names : List String} {next : String} {middle found : Place}
    (led : host.follow start names = .ok middle) (last : host.step middle next = .ok found) :
    host.follow start (names ++ [next]) = .ok found := by
  unfold follow at led ⊢
  rw [List.foldlM_append, led]
  change host.step middle next >>= pure = .ok found
  rw [bind_pure, last]

/-! ### Reading what was written -/

/-- What reading gives at the end of a path. -/
def readPlace (host : Host) (endsInSlash : Bool) : Place → Except FileFault ByteArray
  | .folder _ => .error .directory
  | .file name => if endsInSlash then .error .notADirectory else .ok (host.files.getD name .empty)
  | .device device => if endsInSlash then .error .notADirectory else readDevice device

theorem read_of_follow {source : String} {path : Path} {place : Place}
    (cut : Path.ofText source = .ok path) (led : host.follow path.start path.names = .ok place) :
    host.read source = host.readPlace path.endsInSlash place := by
  unfold read
  rw [cut]
  simp only [bind, Except.bind, led]
  cases place <;> rfl

theorem read_eq_ok {source : String} {contents : ByteArray}
    (reads : host.read source = .ok contents) :
    ∃ path place, Path.ofText source = .ok path ∧
      host.follow path.start path.names = .ok place ∧
      host.readPlace path.endsInSlash place = .ok contents := by
  cases cut : Path.ofText source with
  | error fault =>
      rw [read, cut] at reads
      cases reads
  | ok path =>
      cases led : host.follow path.start path.names with
      | error fault =>
          rw [read, cut] at reads
          simp only [bind, Except.bind, led] at reads
          cases reads
      | ok place => exact ⟨path, place, rfl, led, read_of_follow cut led ▸ reads⟩

/-- A path that could be read reads the same after a file was written, or it leads to the file. -/
theorem read_put {source : String} {contents : ByteArray}
    (reads : host.read source = .ok contents) :
    (host.put name text).read source = .ok contents ∨
      (host.put name text).read source = .ok text.toUTF8 := by
  obtain ⟨path, place, cut, led, isRead⟩ := read_eq_ok reads
  rw [read_of_follow cut (follow_put led)]
  cases place with
  | folder _ => exact .inl isRead
  | device _ => exact .inl isRead
  | file found =>
      simp only [readPlace, put, Dict.getD, Dict.find?_insert] at isRead ⊢
      split_ifs at isRead ⊢ with slash same
      · exact .inr rfl
      · exact .inl isRead

/-- What writing a text to a path leaves behind. -/
inductive Written (target text : String) (host : Host) : Host → Prop
  | discarded : Written target text host host
  | file {name : String} (readBack : (host.put name text).read target = .ok text.toUTF8) :
      Written target text host (host.put name text)
  | stdout : Written target text host { host with stdout := host.stdout ++ text }
  | stderr : Written target text host { host with stderr := host.stderr ++ text }

theorem written_of_writeDevice {target : String} {device : Device}
    (wrote : host.writeDevice text device = .ok after) : Written target text host after := by
  cases device with
  | sink | endless | stdin =>
      cases wrote
      exact .discarded
  | full =>
      rw [writeDevice] at wrote
      split at wrote <;> cases wrote
      exact .discarded
  | terminal => cases wrote
  | stdout =>
      cases wrote
      exact .stdout
  | stderr =>
      cases wrote
      exact .stderr

/-- A name that a directory does not have yet leads to the file that is put there. -/
theorem step_put_self (absent : host.step (.folder .working) name = .error .missing) :
    (host.put name text).step (.folder .working) name = .ok (.file name) := by
  simp only [step] at absent ⊢
  have listed : entry? (host.put name text) .working name = some (.file name) := by
    simp [ entry?, put, Dict.contains]
  split_ifs at absent ⊢
  · cases absent
  · rw [listed]

theorem readPlace_put_self :
    (host.put name text).readPlace false (.file name) = .ok text.toUTF8 := by
  simp [readPlace, put, Dict.getD]

theorem written_of_writeIn {target : String} {path : Path} {folder : Folder}
    (cut : Path.ofText target = .ok path) (noSlash : path.endsInSlash = false)
    (last : path.names.getLast? = some name)
    (led : host.follow path.start path.names.dropLast = .ok (.folder folder))
    (wrote : host.writeIn folder name text = .ok after) : Written target text host after := by
  obtain ⟨names, split⟩ := List.getLast?_eq_some_iff.mp last
  rw [split, List.dropLast_concat] at led
  -- A file that the last name leads to is read back by the whole path.
  have readBack : ∀ file, (host.put file text).step (.folder folder) name = .ok (.file file) →
      (host.put file text).read target = .ok text.toUTF8 := by
    intro file found
    have whole := follow_concat (follow_put led) found
    rw [← split] at whole
    rw [read_of_follow cut whole, noSlash, readPlace_put_self]
  rw [writeIn] at wrote
  split at wrote
  · cases wrote
  · next file found =>
      cases wrote
      exact .file (readBack file (step_put found))
  · exact written_of_writeDevice wrote
  · next absent =>
      unfold create at wrote
      split at wrote
      · cases wrote
        exact .file (readBack name (step_put_self absent))
      · cases wrote
      · cases wrote
        exact .discarded
  · cases wrote

/-- Writing changes at most one file or stream, and a file that was written is read back. -/
theorem written_of_write {target : String} (wrote : host.write target text = .ok after) :
    Written target text host after := by
  cases cut : Path.ofText target with
  | error fault =>
      rw [write, cut] at wrote
      cases wrote
  | ok path =>
      rw [write, cut] at wrote
      simp only [bind, Except.bind] at wrote
      split at wrote
      · cases wrote
      · next name last =>
          split at wrote
          · cases wrote
          · next place led =>
              cases place with
              | file _ => cases wrote
              | device _ => cases wrote
              | folder folder =>
                  simp only at wrote
                  split_ifs at wrote with slash
                  exact written_of_writeIn cut (Bool.eq_false_iff.mpr slash) last led wrote

/-- A file that was changed by writing holds the text, and every path that could be read before
reads the same or leads to the file. -/
theorem Written.read {target : String} (written : Written target text host after)
    (changed : after.files ≠ host.files) :
    after.read target = .ok text.toUTF8 ∧ ∀ source contents, host.read source = .ok contents →
      after.read source = .ok contents ∨ after.read source = .ok text.toUTF8 := by
  cases written with
  | discarded => exact absurd rfl changed
  | stdout => exact absurd rfl changed
  | stderr => exact absurd rfl changed
  | file readBack => exact ⟨readBack, fun source contents reads => read_put reads⟩

end Host

theorem decodeText_toUTF8 (text : String) : decodeText (.ok text.toUTF8) = .ok text := by
  have valid : String.fromUTF8? text.toUTF8 = some text := dif_pos text.isValidUTF8
  simp only [decodeText, bind, Except.bind, valid]
  rfl

/-! ### Runs -/

/-- A run that fails shows a complaint and nothing else. -/
structure Outcome.Complains (outcome : Outcome) : Prop where
  exitCode : outcome.exitCode ≠ 0
  stdout : outcome.stdout = ""
  stderr : outcome.stderr ≠ ""

theorem complains_failed {exitCode : Nat} (fails : exitCode ≠ 0) (message : String) :
    (Outcome.failed exitCode message).Complains where
  exitCode := fails
  stdout := rfl
  stderr := by simp [Outcome.failed]

theorem complains_fileFailed (path : String) (fault : FileFault) :
    (Outcome.fileFailed path fault).Complains :=
  complains_failed (by decide) _

theorem complains_of_lowerText {emit : Emit} {text : String} {outcome : Outcome}
    (refused : lowerText emit text = .error outcome) : outcome.Complains := by
  unfold lowerText at refused
  split at refused
  · cases refused
    exact complains_failed (by decide) _
  · simp only at refused
    split_ifs at refused
    · cases refused
      exact ⟨by decide, rfl, by decide⟩
    · split at refused <;> cases refused
      exact complains_failed (by decide) _

namespace Host

variable {host after : Host} {path text : String}

theorem run_bind_of {α β : Type} {first : StateM Host α} {value : α} (next : α → StateM Host β)
    (ran : first.run host = (value, after)) :
    (first >>= next).run host = (next value).run after := by
  rw [StateT.run_bind, ran]
  rfl

theorem run_read : (access.read path).run host = (host.read path, host) := rfl

theorem run_write_of_ok (wrote : host.write path text = .ok after) :
    (access.write path text).run host = (.ok (), after) := by
  have asked : (get : StateM Host Host).run host = (host, host) := rfl
  unfold access
  rw [run_bind_of _ asked, wrote]
  rfl

theorem run_write_of_error {fault : FileFault} (failed : host.write path text = .error fault) :
    (access.write path text).run host = (.error fault, host) := by
  have asked : (get : StateM Host Host).run host = (host, host) := rfl
  unfold access
  rw [run_bind_of _ asked, failed]
  rfl

/-- How lowering a plan file ends: it fails and changes nothing, or it delivers the output for the
plan, either to the standard output or to a path. -/
inductive Lowers (host : Host) (options : Options) : Outcome × Host → Prop
  | fails {outcome : Outcome} (complains : outcome.Complains) : Lowers host options (outcome, host)
  | prints {source output : String}
      (reads : decodeText (host.read options.plan) = .ok source)
      (lowers : lowerText options.emit source = .ok output) (target : options.output = none) :
      Lowers host options ({ stdout := output }, host)
  | writes {source output path : String} {after : Host}
      (reads : decodeText (host.read options.plan) = .ok source)
      (lowers : lowerText options.emit source = .ok output) (target : options.output = some path)
      (wrote : host.write path output = .ok after) : Lowers host options ({}, after)

theorem lowers_lowerFile (host : Host) (options : Options) :
    Lowers host options ((lowerFile access options).run host) := by
  unfold lowerFile
  rw [run_bind_of _ run_read]
  cases reads : decodeText (host.read options.plan) with
  | error fault => exact .fails (complains_fileFailed _ _)
  | ok source =>
      cases lowers : lowerText options.emit source with
      | error outcome =>
          simp only [lowers]
          exact .fails (complains_of_lowerText lowers)
      | ok output =>
          cases target : options.output with
          | none =>
              simp only [lowers]
              exact .prints reads lowers target
          | some path =>
              simp only [lowers]
              cases wrote : host.write path output with
              | error fault =>
                  rw [run_bind_of _ (run_write_of_error wrote)]
                  exact .fails (complains_fileFailed _ _)
              | ok after =>
                  rw [run_bind_of _ (run_write_of_ok wrote)]
                  exact .writes reads lowers target wrote

/-- A run on a host shows the outcome of the command after what the command has left behind. -/
theorem run_eq {arguments : List String} {outcome : Outcome}
    (ended : (CommandLine.run access arguments).run host = (outcome, after)) :
    host.run arguments = (outcome.exitCode, { after with
      stdout := after.stdout ++ outcome.stdout
      stderr := after.stderr ++ outcome.stderr }) := by
  rw [Host.run, ended]

theorem lowers_run {arguments : List String} {options : Options}
    (requested : Request.ofArguments arguments = .ok (.lower options)) (host : Host) :
    Lowers host options ((CommandLine.run access arguments).run host) := by
  have lowering : CommandLine.run access arguments = lowerFile access options := by
    rw [CommandLine.run, requested]
  rw [lowering]
  exact lowers_lowerFile host options

/-- A run succeeds, or it complains and leaves the host as it was. -/
theorem succeeds_or_complains {arguments : List String} {outcome : Outcome}
    (ended : (CommandLine.run access arguments).run host = (outcome, after)) :
    outcome.exitCode = 0 ∨ outcome.Complains ∧ after = host := by
  cases requested : Request.ofArguments arguments with
  | error fault =>
      rw [CommandLine.run, requested] at ended
      cases ended
      exact .inr ⟨⟨by simp, rfl, by simp⟩, rfl⟩
  | ok request =>
      cases request with
      | version =>
          rw [CommandLine.run, requested] at ended
          cases ended
          exact .inl rfl
      | help form =>
          rw [CommandLine.run, requested] at ended
          cases ended
          exact .inl rfl
      | lower options =>
          have lowers := lowers_run requested host
          rw [ended] at lowers
          cases lowers with
          | fails complains => exact .inr ⟨complains, rfl⟩
          | prints => exact .inl rfl
          | writes => exact .inl rfl

/-- **A failed run.** No file is changed and nothing is printed to the standard output. The standard
error says why. -/
theorem run_of_failed {arguments : List String} {exitCode : Nat}
    (ran : host.run arguments = (exitCode, after)) (failed : exitCode ≠ 0) :
    after.files = host.files ∧ after.stdout = host.stdout ∧
      ∃ complaint, complaint ≠ "" ∧ after.stderr = host.stderr ++ complaint := by
  generalize ended : (CommandLine.run access arguments).run host = result
  obtain ⟨outcome, middle⟩ := result
  rw [run_eq ended] at ran
  obtain ⟨rfl, rfl⟩ := Prod.mk.inj ran
  rcases succeeds_or_complains ended with succeeded | ⟨complains, rfl⟩
  · exact absurd succeeded failed
  · refine ⟨rfl, ?_, _, complains.stderr, rfl⟩
    rw [complains.stdout, String.append_empty]

/-- **A successful run.** The plan file could be read and lowered, and the output for it was
printed, or was written to the path that was asked for. -/
theorem run_of_succeeded {arguments : List String} {options : Options}
    (requested : Request.ofArguments arguments = .ok (.lower options))
    (ran : host.run arguments = (0, after)) :
    ∃ source output, decodeText (host.read options.plan) = .ok source ∧
      lowerText options.emit source = .ok output ∧
      match options.output with
      | none => after = { host with stdout := host.stdout ++ output }
      | some path => Written path output host after := by
  have lowers := lowers_run requested host
  generalize ended : (CommandLine.run access arguments).run host = result at lowers
  obtain ⟨outcome, middle⟩ := result
  rw [run_eq ended] at ran
  obtain ⟨succeeded, rfl⟩ := Prod.mk.inj ran
  cases lowers with
  | fails complains => exact absurd succeeded complains.exitCode
  | @prints source output reads lowers target =>
      refine ⟨source, output, reads, lowers, ?_⟩
      simp [target]
  | @writes source output path _ reads lowers target wrote =>
      refine ⟨source, output, reads, lowers, ?_⟩
      simpa [target] using written_of_write wrote

/-- **What a run has written is read back.** If a successful run has changed the files, then the
path that was asked for holds the output for the plan, and every other path that could be read
before reads the same or leads to that file. -/
theorem read_after_run {arguments : List String} {options : Options} {path : String}
    (requested : Request.ofArguments arguments = .ok (.lower options))
    (target : options.output = some path) (ran : host.run arguments = (0, after))
    (changed : after.files ≠ host.files) :
    ∃ source output, decodeText (host.read options.plan) = .ok source ∧
      lowerText options.emit source = .ok output ∧ decodeText (after.read path) = .ok output ∧
      ∀ other contents, host.read other = .ok contents →
        after.read other = .ok contents ∨ decodeText (after.read other) = .ok output := by
  obtain ⟨source, output, reads, lowers, delivered⟩ := run_of_succeeded requested ran
  simp only [target] at delivered
  obtain ⟨readBack, others⟩ := delivered.read changed
  refine ⟨source, output, reads, lowers, ?_, fun other contents before => ?_⟩
  · rw [readBack, decodeText_toUTF8]
  · refine (others other contents before).imp_right fun same => ?_
    rw [same, decodeText_toUTF8]

end Host

end CommandLine

end TensorLowering
