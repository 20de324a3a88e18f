import Monoimage.Boot.Start
import Monoimage.Clib.Scan

/-! The `copy` command: `do_tftp` takes a host and a file out of the two operands and runs the
tftp client with them. -/
namespace Monoimage.Boot

open Clib

def tftpBinary : Text := "/usr/bin/tftp".toList

def cmdGet : Text := "get".toList
def cmdPut : Text := "put".toList

def tftpArgv (host cmd file : Text) : List Text :=
  ["tftp".toList, host, "-v".toList, "-c".toList, cmd, file]

/-- What `do_tftp` returns and prints, and the command line that it runs the client with. -/
structure TftpRun where
  ret : Int
  printed : Text
  argv : Option (List Text)
  deriving DecidableEq, Repr

section

variable (run : Text → List Text → Bool)

/-- `do_exec`, by the outcome of the child. -/
def execTftp (host cmd file : Text) : TftpRun :=
  let argv := doExecArgv (tftpArgv host cmd file)
  ⟨if run tftpBinary argv then 0 else 1, [], some argv⟩

/-- A NUL takes the place of the slash behind the host. In the second direction the path behind
it is not looked at. -/
def doTftp (src dst : Text) : Except Fault TftpRun :=
  if strncmpEq src "tftp:/".toList 6 && strncmpEq dst "disk:/".toList 6 then do
    let (_, p) ← scanTo '/' src
    let (host, p) ← scanTo '/' (skipOver '/' p)
    pure (execTftp run host cmdGet (skipOver '/' (p.drop 1)))
  else if strncmpEq dst "tftp:/".toList 6 && strncmpEq src "disk:/".toList 6 then do
    let (_, p) ← scanTo '/' dst
    let (host, _) ← scanTo '/' (skipOver '/' p)
    let (_, p) ← scanTo '/' src
    pure (execTftp run host cmdPut (skipOver '/' (p.drop 1)))
  else pure ⟨1, "can't parse copy command\n".toList, none⟩

/-- `cmdline` begins with the name of the command. -/
def cmdCopy (cmdline : List Text) : Except Fault TftpRun :=
  match cmdline[1]?, cmdline[2]? with
  | some src, some dst =>
    if strncmpEq src "tftp".toList 4 || strncmpEq dst "tftp".toList 4 then do
      let tftp ← doTftp run src dst
      pure ⟨0, tftp.printed ++ if tftp.ret = 0 then "[ok]\n".toList else "[fail]\n".toList,
        tftp.argv⟩
    else pure ⟨0, [], none⟩
  | _, _ => pure ⟨0, [], none⟩

end

/-! ## The operands -/

def tftpScheme : Text := "tftp:".toList
def diskScheme : Text := "disk:".toList

/-- `tftp://host/path`. -/
structure TftpName (host path text : Text) : Prop where
  nonempty : host ≠ []
  noSlash : '/' ∉ host
  parts : ∃ rest, Parts '/' tftpScheme rest text ∧ Parts '/' host path rest

/-- `disk:/file`. -/
def DiskName (file text : Text) : Prop :=
  Parts '/' diskScheme file text

inductive Direction where
  | get
  | put
  deriving DecidableEq, Repr

/-- A file on a host and a local file, and which of them is copied to the other. -/
structure Transfer where
  direction : Direction
  host : Text
  path : Text
  file : Text
  deriving DecidableEq, Repr

def Direction.cmd : Direction → Text
  | .get => cmdGet
  | .put => cmdPut

/-- The one file that the command line names. -/
def Transfer.named (transfer : Transfer) : Text :=
  match transfer.direction with
  | .get => transfer.path
  | .put => transfer.file

/-- What the two operands of `copy` ask for. -/
def Asks (src dst : Text) (transfer : Transfer) : Prop :=
  match transfer.direction with
  | .get => TftpName transfer.host transfer.path src ∧ DiskName transfer.file dst
  | .put => DiskName transfer.file src ∧ TftpName transfer.host transfer.path dst

/-- Where the operands have the schemes of one of the two directions. -/
def SchemesOf (src dst : Text) : Direction → Prop
  | .get => "tftp:/".toList <+: src ∧ "disk:/".toList <+: dst
  | .put => "tftp:/".toList <+: dst ∧ "disk:/".toList <+: src

section Operands

variable {src dst text host path file : Text} {direction : Direction}

theorem TftpName.starts (h : TftpName host path text) : "tftp:/".toList <+: text := by
  obtain ⟨rest, hscheme, -⟩ := h.parts
  exact hscheme.starts

theorem DiskName.starts (h : DiskName file text) : "disk:/".toList <+: text :=
  Parts.starts h

theorem not_disk_of_tftp (h : "tftp:/".toList <+: text) : ¬ "disk:/".toList <+: text := by
  intro h'
  have := List.prefix_of_prefix_length_le h h' (by decide)
  exact absurd this (by decide)

theorem Asks.schemes {transfer : Transfer} (h : Asks src dst transfer) :
    SchemesOf src dst transfer.direction := by
  obtain ⟨direction, host, path, file⟩ := transfer
  cases direction with
  | get => exact ⟨h.1.starts, h.2.starts⟩
  | put => exact ⟨h.2.starts, h.1.starts⟩

theorem SchemesOf.direction_eq {direction' : Direction} (h : SchemesOf src dst direction)
    (h' : SchemesOf src dst direction') : direction = direction' := by
  cases direction with
  | get =>
    cases direction' with
    | get => rfl
    | put => exact absurd h'.2 (not_disk_of_tftp h.1)
  | put =>
    cases direction' with
    | get => exact absurd h'.2 (not_disk_of_tftp h.1)
    | put => rfl

theorem TftpName.unique {host' path' : Text} (h : TftpName host path text)
    (h' : TftpName host' path' text) : host = host' ∧ path = path' := by
  obtain ⟨rest, hscheme, hpath⟩ := h.parts
  obtain ⟨rest', hscheme', hpath'⟩ := h'.parts
  obtain ⟨-, rfl⟩ := hscheme.unique hscheme' (by decide) (by decide)
  exact hpath.unique hpath' h.noSlash h'.noSlash

theorem DiskName.unique {file' : Text} (h : DiskName file text) (h' : DiskName file' text) :
    file = file' :=
  (Parts.unique h h' (by decide) (by decide)).2

/-- Two operands ask for one thing at most. -/
theorem Asks.unique {transfer transfer' : Transfer} (h : Asks src dst transfer)
    (h' : Asks src dst transfer') : transfer = transfer' := by
  have hdirection := h.schemes.direction_eq h'.schemes
  obtain ⟨direction, host, path, file⟩ := transfer
  obtain ⟨direction', host', path', file'⟩ := transfer'
  obtain rfl : direction = direction' := hdirection
  cases direction with
  | get =>
    obtain ⟨hhost, hpath⟩ := h.1.unique h'.1
    have hfile := h.2.unique h'.2
    dsimp only at hhost hpath hfile
    rw [hhost, hpath, hfile]
  | put =>
    obtain ⟨hhost, hpath⟩ := h.2.unique h'.2
    have hfile := h.1.unique h'.1
    dsimp only at hhost hpath hfile
    rw [hhost, hpath, hfile]

end Operands

/-! ## The client -/

/-- The local name that a tftp client gives to a file that it is told to get, and the local and
the remote name of one that it is told to put, by commands with one operand. -/
structure TftpClient where
  received : Text → Text
  sent : Text → Text × Text

/-- What is copied under a command line, whose operands the client takes as they are. -/
def TftpClient.transfer (client : TftpClient) : List Text → Option Transfer
  | [_, host, _, _, cmd, file] =>
    if cmd = cmdGet then some ⟨.get, host, file, client.received file⟩
    else if cmd = cmdPut then some ⟨.put, host, (client.sent file).2, (client.sent file).1⟩
    else none
  | _ => none

section Copies

variable (client : TftpClient) (run : Text → List Text → Bool) (src dst : Text)

/-- Either nothing is run, or the client copies what the operands ask for. -/
def Copies : Prop :=
  (∃ tftp, doTftp run src dst = .ok tftp ∧ tftp.ret = 1 ∧ tftp.argv = none) ∨
    ∃ transfer, Asks src dst transfer ∧
      ∃ tftp argv, doTftp run src dst = .ok tftp ∧ tftp.argv = some argv ∧
        client.transfer argv = some transfer

/-- The client itself keeps the name of the file that only the operand on this side has. -/
def KeepsName (transfer : Transfer) : Prop :=
  match transfer.direction with
  | .get => client.received transfer.path = transfer.file
  | .put => client.sent transfer.file = (transfer.file, transfer.path)

variable {client run src dst} {transfer : Transfer}

theorem doTftp_of_schemes_get (h : SchemesOf src dst .get) :
    doTftp run src dst = (scanTo '/' src >>= fun (_, p) =>
      scanTo '/' (skipOver '/' p) >>= fun (host, p) =>
        .ok (execTftp run host cmdGet (skipOver '/' (p.drop 1)))) := by
  have hsrc : strncmpEq src "tftp:/".toList 6 = true := strncmpEq_length_right.mpr h.1
  have hdst : strncmpEq dst "disk:/".toList 6 = true := strncmpEq_length_right.mpr h.2
  rw [doTftp, hsrc, hdst]
  rfl

theorem doTftp_of_schemes_put (h : SchemesOf src dst .put) :
    doTftp run src dst = (scanTo '/' dst >>= fun (_, p) =>
      scanTo '/' (skipOver '/' p) >>= fun (host, _) =>
        scanTo '/' src >>= fun (_, p) =>
          .ok (execTftp run host cmdPut (skipOver '/' (p.drop 1)))) := by
  have hsrc : ¬ strncmpEq src "tftp:/".toList 6 = true := fun hsrc =>
    not_disk_of_tftp (strncmpEq_length_right.mp hsrc) h.2
  have hdst : strncmpEq dst "tftp:/".toList 6 = true := strncmpEq_length_right.mpr h.1
  have hdisk : strncmpEq src "disk:/".toList 6 = true := strncmpEq_length_right.mpr h.2
  rw [doTftp, Bool.eq_false_iff.mpr hsrc, hdst, hdisk]
  rfl

/-- Anything else is refused. -/
theorem doTftp_of_no_schemes (h : ∀ direction, ¬ SchemesOf src dst direction) :
    doTftp run src dst = .ok ⟨1, "can't parse copy command\n".toList, none⟩ := by
  have hget : ¬ (strncmpEq src "tftp:/".toList 6 && strncmpEq dst "disk:/".toList 6) = true := by
    rw [Bool.and_eq_true]
    exact fun hget => h .get (hget.imp strncmpEq_length_right.mp strncmpEq_length_right.mp)
  have hput : ¬ (strncmpEq dst "tftp:/".toList 6 && strncmpEq src "disk:/".toList 6) = true := by
    rw [Bool.and_eq_true]
    exact fun hput => h .put (hput.imp strncmpEq_length_right.mp strncmpEq_length_right.mp)
  rw [doTftp, if_neg hget, if_neg hput]
  rfl

/-- Operands of the right form are taken apart without leaving them. -/
theorem doTftp_of_asks (h : Asks src dst transfer) :
    doTftp run src dst =
      .ok (execTftp run transfer.host transfer.direction.cmd transfer.named) := by
  have hschemes := h.schemes
  obtain ⟨direction, host, path, file⟩ := transfer
  cases direction with
  | get =>
    obtain ⟨⟨-, hhost, rest, hscheme, hpath⟩, -⟩ := h
    obtain ⟨p, hscan, hskip, -⟩ := hscheme.scanTo (by decide)
    obtain ⟨q, hscan', -, hskip'⟩ := hpath.scanTo hhost
    rw [doTftp_of_schemes_get hschemes, hscan]
    dsimp only [bind, Except.bind]
    rw [hskip, hscan']
    exact congrArg (fun name => Except.ok (execTftp run host cmdGet name)) hskip'
  | put =>
    obtain ⟨hfile, -, hhost, rest, hscheme, hpath⟩ := h
    obtain ⟨p, hscan, hskip, -⟩ := hscheme.scanTo (by decide)
    obtain ⟨q, hscan', -, -⟩ := hpath.scanTo hhost
    obtain ⟨r, hscan'', -, hskip'⟩ := Parts.scanTo hfile (by decide)
    rw [doTftp_of_schemes_put hschemes, hscan]
    dsimp only [bind, Except.bind]
    rw [hskip, hscan']
    dsimp only
    rw [hscan'']
    exact congrArg (fun name => Except.ok (execTftp run host cmdPut name)) hskip'

theorem argv_of_schemes {direction : Direction} {tftp : TftpRun}
    (h : SchemesOf src dst direction) (htftp : doTftp run src dst = .ok tftp) :
    tftp.argv ≠ none := by
  cases direction with
  | get =>
    rw [doTftp_of_schemes_get h] at htftp
    obtain ⟨_, -, htftp⟩ := bind_eq_ok_iff.mp htftp
    obtain ⟨_, -, htftp⟩ := bind_eq_ok_iff.mp htftp
    cases htftp
    exact Option.some_ne_none _
  | put =>
    rw [doTftp_of_schemes_put h] at htftp
    obtain ⟨_, -, htftp⟩ := bind_eq_ok_iff.mp htftp
    obtain ⟨_, -, htftp⟩ := bind_eq_ok_iff.mp htftp
    obtain ⟨_, -, htftp⟩ := bind_eq_ok_iff.mp htftp
    cases htftp
    exact Option.some_ne_none _

theorem transfer_argv_iff :
    client.transfer (doExecArgv (tftpArgv transfer.host transfer.direction.cmd transfer.named)) =
      some transfer ↔ KeepsName client transfer := by
  obtain ⟨direction, host, path, file⟩ := transfer
  cases direction with
  | get =>
    change some (Transfer.mk .get host path (client.received path)) = some _ ↔ _
    simp [KeepsName]
  | put =>
    change some (Transfer.mk .put host (client.sent file).2 (client.sent file).1) = some _ ↔ _
    simp [KeepsName, Prod.ext_iff, and_comm]

/-- The code meets what the operands ask for exactly if they have the schemes of no direction, or
the right form and the client by itself keeps the name that it is not told. -/
theorem copies_iff : Copies client run src dst ↔
    (∀ direction, ¬ SchemesOf src dst direction) ∨
      ∃ transfer, Asks src dst transfer ∧ KeepsName client transfer := by
  constructor
  · rintro (⟨tftp, htftp, -, hargv⟩ | ⟨transfer, hasks, tftp, argv, htftp, hargv, htransfer⟩)
    · exact Or.inl fun direction h => argv_of_schemes h htftp hargv
    · rw [doTftp_of_asks hasks] at htftp
      cases htftp
      cases hargv
      exact Or.inr ⟨transfer, hasks, transfer_argv_iff.mp htransfer⟩
  · rintro (h | ⟨transfer, hasks, hkeeps⟩)
    · exact Or.inl ⟨_, doTftp_of_no_schemes h, rfl, rfl⟩
    · exact Or.inr ⟨transfer, hasks, _, _, doTftp_of_asks hasks, rfl,
        transfer_argv_iff.mpr hkeeps⟩

/-- The operand that is behind `tftp:`. -/
def remoteOperand (src dst : Text) : Direction → Text
  | .get => src
  | .put => dst

theorem scanTo_tftp (rest : Text) :
    scanTo '/' ("tftp:/".toList ++ rest) = .ok (tftpScheme, '/' :: rest) := by
  have hscheme : '/' ∉ tftpScheme := by decide
  exact scanTo_append rest hscheme

theorem scanTo_disk (rest : Text) :
    scanTo '/' ("disk:/".toList ++ rest) = .ok (diskScheme, '/' :: rest) := by
  have hscheme : '/' ∉ diskScheme := by decide
  exact scanTo_append rest hscheme

theorem error_of_schemes {direction : Direction} (h : SchemesOf src dst direction) :
    (∃ f, doTftp run src dst = .error f) ↔
      '/' ∉ skipOver '/' ((remoteOperand src dst direction).drop tftpScheme.length) := by
  rw [← scanTo_error_iff]
  cases direction with
  | get =>
    obtain ⟨rest, rfl⟩ := h.1
    rw [doTftp_of_schemes_get h, scanTo_tftp]
    exact exists_congr fun f => bind_eq_error_iff fun _ => ⟨_, rfl⟩
  | put =>
    obtain ⟨rest, rfl⟩ := h.1
    obtain ⟨file, rfl⟩ := h.2
    rw [doTftp_of_schemes_put h, scanTo_tftp, scanTo_disk]
    exact exists_congr fun f => bind_eq_error_iff fun _ => ⟨_, rfl⟩

/-- The code leaves an operand exactly if no slash follows the host. -/
theorem doTftp_error_iff : (∃ f, doTftp run src dst = .error f) ↔
    ∃ direction, SchemesOf src dst direction ∧
      '/' ∉ skipOver '/' ((remoteOperand src dst direction).drop tftpScheme.length) := by
  constructor
  · rintro ⟨f, herror⟩
    by_cases hany : ∃ direction, SchemesOf src dst direction
    · obtain ⟨direction, h⟩ := hany
      exact ⟨direction, h, (error_of_schemes h).mp ⟨f, herror⟩⟩
    · rw [doTftp_of_no_schemes (not_exists.mp hany)] at herror
      cases herror
  · rintro ⟨direction, h, hslash⟩
    exact (error_of_schemes h).mpr hslash

end Copies

/-- `cmd_copy` lets every pair through that `do_tftp` would run the client for. -/
theorem cmdCopy_argv (run : Text → List Text → Bool) (name src dst : Text) (more : List Text) :
    (cmdCopy run (name :: src :: dst :: more)).map TftpRun.argv =
      (doTftp run src dst).map TftpRun.argv := by
  change (if strncmpEq src "tftp".toList 4 || strncmpEq dst "tftp".toList 4 then _ else _ :
    Except Fault TftpRun).map TftpRun.argv = _
  split
  · cases doTftp run src dst <;> rfl
  · rename_i hnone
    rw [Bool.or_eq_true, not_or] at hnone
    have hfront {text : Text} (h : "tftp:/".toList <+: text) :
        strncmpEq text "tftp".toList 4 = true :=
      strncmpEq_length_right.mpr (List.IsPrefix.trans (by decide) h)
    rw [doTftp_of_no_schemes]
    · rfl
    · intro direction h
      cases direction with
      | get => exact hnone.1 (hfront h.1)
      | put => exact hnone.2 (hfront h.1)

/-! ## A copy under another name -/

/-- A client that takes the last part of a path as the local name. -/
def tailClient : TftpClient where
  received path := (path.splitOn '/').getLastD []
  sent file := ((file.splitOn '/').getLastD [], file)

def newImg : Text := "tftp://10.0.0.1/new.img".toList
def funkyImg : Text := "disk:/funky.img".toList

theorem asks_newImg : Asks newImg funkyImg
    ⟨.get, "10.0.0.1".toList, "new.img".toList, "funky.img".toList⟩ := by
  have hscheme : Parts '/' tftpScheme "10.0.0.1/new.img".toList newImg :=
    ⟨by decide, by decide, 1, by decide⟩
  have hpath : Parts '/' "10.0.0.1".toList "new.img".toList "10.0.0.1/new.img".toList :=
    ⟨by decide, by decide, 0, by decide⟩
  have hfile : DiskName "funky.img".toList funkyImg := ⟨by decide, by decide, 0, by decide⟩
  exact ⟨⟨by decide, by decide, _, hscheme, hpath⟩, hfile⟩

/-- The command line has no place for the name on the disk, and without a path the search for
the end of the host leaves the operand. -/
theorem not_copies_newImg :
    (doTftp (fun _ _ => true) newImg funkyImg = .ok ⟨0, [], some
        ["tftp".toList, "10.0.0.1".toList, "-v".toList, "-c".toList, "get".toList,
          "new.img".toList]⟩ ∧
      ¬ Copies tailClient (fun _ _ => true) newImg funkyImg) ∧
    (doTftp (fun _ _ => true) "tftp://10.0.0.1".toList funkyImg = .error .outOfBounds ∧
      ¬ Copies tailClient (fun _ _ => true) "tftp://10.0.0.1".toList funkyImg) := by
  have hnew : doTftp (fun _ _ => true) newImg funkyImg = .ok ⟨0, [], some
      ["tftp".toList, "10.0.0.1".toList, "-v".toList, "-c".toList, "get".toList,
        "new.img".toList]⟩ := by
    decide +kernel
  have hhost : doTftp (fun _ _ => true) "tftp://10.0.0.1".toList funkyImg =
      .error .outOfBounds := by
    decide +kernel
  refine ⟨⟨hnew, ?_⟩, hhost, ?_⟩
  · rintro (⟨tftp, htftp, -, hnone⟩ | ⟨transfer, hasks, tftp, argv, htftp, hargv, htransfer⟩)
    · rw [hnew] at htftp
      cases htftp
      cases hnone
    · rw [hnew] at htftp
      cases htftp
      cases hargv
      rw [hasks.unique asks_newImg] at htransfer
      exact absurd htransfer (by decide +kernel)
  · rintro (⟨tftp, htftp, -⟩ | ⟨transfer, -, tftp, argv, htftp, -⟩)
    · rw [hhost] at htftp
      cases htftp
    · rw [hhost] at htftp
      cases htftp

end Monoimage.Boot
