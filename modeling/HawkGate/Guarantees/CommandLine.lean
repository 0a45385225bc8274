-- SUMMARY: `main` runs a command with some options exactly if the words spell the command and the options.
import HawkGate.Control.Main

/-!
# Command lines

Every way of writing the options of `hgctl`, and no other, is read as these
options: an argument may stand behind its option or be joined to it, a long
option may be cut short, words that are no options may stand in between, and
nothing matters behind `--`. The name of the command may be capitalised.
-/

namespace HawkGate

open CString Getopt StdString

/-- The words are the name, in any case, and a spelling of the options. -/
def SpelledAs {X : Type} (name : String) (c : Codec Char X) (opts : List X) :
    List CString → Prop
  | [] => False
  | cmd :: args => toLower cmd = name.toList ∧ c.Spelled args opts

/-- The words spell the command; what spells no command asks for the help. -/
def MainCommand.Spelled (words : List CString) : MainCommand → Prop
  | .start opts => SpelledAs "start" startOpts opts words
  | .stop opts => SpelledAs "stop" ifaceOpts opts words
  | .gateway (.add opts) => SpelledAs "add" addOpts opts words
  | .gateway (.del opts) => SpelledAs "del" delOpts opts words
  | .gateway (.mapDel opts) => SpelledAs "map-del" mapDelOpts opts words
  | .gateway (.proto opts) => SpelledAs "proto" protoOpts opts words
  | .gateway (.bypassAdd opts) => SpelledAs "bypass-add" bypassOpts opts words
  | .gateway (.bypassDel opts) => SpelledAs "bypass-del" bypassOpts opts words
  | .gateway (.wgAdd opts) => SpelledAs "wg-add" wgOpts opts words
  | .gateway (.wgDel opts) => SpelledAs "wg-del" wgOpts opts words
  | .gateway (.showClients _ _ opts) => SpelledAs "show" ifaceOpts opts words
  | .gateway (.details _ opts) => SpelledAs "details" detailsOpts opts words
  | .gateway .help => ∀ cmd ∈ words.head?, ∀ e ∈ actionTable, toLower cmd ≠ e.1.toList

/-- The command has no option that `getopt_long` does not know. -/
def MainCommand.Known : MainCommand → Prop
  | .start opts => .unknown ∉ opts
  | .stop opts => .unknown ∉ opts
  | .gateway (.add opts) => .unknown ∉ opts
  | .gateway (.del opts) => .unknown ∉ opts
  | .gateway (.mapDel opts) => .unknown ∉ opts
  | .gateway (.proto opts) => .unknown ∉ opts
  | .gateway (.bypassAdd opts) => .unknown ∉ opts
  | .gateway (.bypassDel opts) => .unknown ∉ opts
  | .gateway (.wgAdd opts) => .unknown ∉ opts
  | .gateway (.wgDel opts) => .unknown ∉ opts
  | .gateway (.showClients _ _ opts) => .unknown ∉ opts
  | .gateway (.details _ opts) => .unknown ∉ opts
  | .gateway .help => True

/-- A name selects its own command, however it is capitalised. -/
theorem hgParseOpcode_eq_iff {name : String} {op : ActionOpcode} (h : (name, op) ∈ actionTable)
    (cmd : CString) : hgParseOpcode cmd = op ↔ toLower cmd = name.toList := by
  have hlower : ∀ e ∈ actionTable, toLower e.1.toList = e.1.toList := by decide +kernel
  have hinj : ∀ e ∈ actionTable, ∀ e' ∈ actionTable, e.2 = e'.2 → e.1 = e'.1 := by decide
  have hbad : ∀ e ∈ actionTable, e.2 ≠ .badOp := by decide
  constructor
  · intro hop
    rw [hgParseOpcode] at hop
    cases hfind : actionTable.find? fun e => toLower cmd = toLower e.1.toList with
    | none =>
      rw [hfind] at hop
      exact absurd hop.symm (hbad _ h)
    | some e =>
      rw [hfind] at hop
      have hmem := List.mem_of_find?_eq_some hfind
      have heq : toLower cmd = toLower e.1.toList := by simpa using List.find?_some hfind
      rw [heq, hlower e hmem, hinj e hmem _ h hop]
  · intro hcmd
    have hname := hgParseOpcode_table _ h
    rwa [hgParseOpcode, hlower _ h, ← hcmd, ← hgParseOpcode] at hname

theorem hgParseOpcode_badOp_iff (cmd : CString) :
    hgParseOpcode cmd = .badOp ↔ ∀ e ∈ actionTable, toLower cmd ≠ e.1.toList := by
  constructor
  · intro hbad e he hcmd
    have hop : hgParseOpcode cmd = e.2 := (hgParseOpcode_eq_iff he cmd).mpr hcmd
    have hne : ∀ e ∈ actionTable, e.2 ≠ .badOp := by decide
    exact hne e he (hop.symm.trans hbad)
  · intro h
    have hlower : ∀ e ∈ actionTable, toLower e.1.toList = e.1.toList := by decide +kernel
    have hnone : (actionTable.find? fun e => toLower cmd = toLower e.1.toList) = none := by
      rw [List.find?_eq_none]
      intro e he
      rw [hlower e he]
      simpa using h e he
    rw [hgParseOpcode, hnone]

/-- The code of the command in the table. -/
def MainCommand.opcode : MainCommand → ActionOpcode
  | .start _ => .start
  | .stop _ => .stop
  | .gateway (.add _) => .add
  | .gateway (.del _) => .del
  | .gateway (.mapDel _) => .mapDel
  | .gateway (.proto _) => .protocol
  | .gateway (.bypassAdd _) => .bypassAdd
  | .gateway (.bypassDel _) => .bypassDel
  | .gateway (.wgAdd _) => .wgAdd
  | .gateway (.wgDel _) => .wgDel
  | .gateway (.showClients _ _ _) => .showClients
  | .gateway (.details _ _) => .details
  | .gateway .help => .badOp

theorem opcode_hgctlMain (lib : ListingLib) (word : CString) (args : List CString) :
    (hgctlMain lib (word :: args)).opcode = hgParseOpcode word := by
  rw [hgctlMain]
  cases hgParseOpcode word <;> rfl

/-- A command whose code makes `main` read its options with a table runs exactly on the words that
    spell it. -/
theorem runs_iff_spelledAs {X : Type} (c : Codec Char X) (make : List X → MainCommand)
    {name : String} {op : ActionOpcode} (hname : (name, op) ∈ actionTable) {lib : ListingLib}
    (hmake : Function.Injective make) (hcode : ∀ opts, (make opts).opcode = op)
    (hmain : ∀ word args, hgParseOpcode word = op →
      hgctlMain lib (word :: args) = make (c.read args))
    {opts : List X} (hknown : c.unknown ∉ opts) (words : List CString) :
    hgctlMain lib words = make opts ↔ SpelledAs name c opts words := by
  cases words with
  | nil =>
    have hop : op ≠ .badOp := by
      have hlisted : ∀ e ∈ actionTable, e.2 ≠ .badOp := by decide
      exact hlisted _ hname
    refine iff_of_false (fun h => hop ?_) id
    rw [← hcode opts, ← h]
    rfl
  | cons word args =>
    rw [SpelledAs, ← hgParseOpcode_eq_iff hname, ← c.read_eq_iff hknown]
    constructor
    · intro h
      have hword : hgParseOpcode word = op := by rw [← opcode_hgctlMain lib word args, h, hcode]
      rw [hmain word args hword] at h
      exact ⟨hword, hmake h⟩
    · rintro ⟨hword, hread⟩
      rw [hmain word args hword, hread]

/-- `main` runs a command with these options exactly on the words that spell them. -/
theorem hgctl_runs_iff_spelled (lib : ListingLib) (cmd : MainCommand) (hknown : cmd.Known)
    (words : List CString) : hgctlMain lib words = cmd.withLib lib ↔ cmd.Spelled words := by
  cases cmd with
  | start opts =>
    exact runs_iff_spelledAs startOpts .start (by decide) (fun _ _ => MainCommand.start.inj)
      (fun _ => rfl) (fun _ _ h => by rw [hgctlMain, h]) hknown words
  | stop opts =>
    exact runs_iff_spelledAs ifaceOpts .stop (by decide) (fun _ _ => MainCommand.stop.inj)
      (fun _ => rfl) (fun _ _ h => by rw [hgctlMain, h]) hknown words
  | gateway cmd =>
    cases cmd with
    | add opts =>
      exact runs_iff_spelledAs addOpts (fun opts => .gateway (.add opts)) (by decide)
        (fun _ _ h => HgctlCommand.add.inj (MainCommand.gateway.inj h)) (fun _ => rfl)
        (fun _ _ h => by rw [hgctlMain, h]) hknown words
    | del opts =>
      exact runs_iff_spelledAs delOpts (fun opts => .gateway (.del opts)) (by decide)
        (fun _ _ h => HgctlCommand.del.inj (MainCommand.gateway.inj h)) (fun _ => rfl)
        (fun _ _ h => by rw [hgctlMain, h]) hknown words
    | mapDel opts =>
      exact runs_iff_spelledAs mapDelOpts (fun opts => .gateway (.mapDel opts)) (by decide)
        (fun _ _ h => HgctlCommand.mapDel.inj (MainCommand.gateway.inj h)) (fun _ => rfl)
        (fun _ _ h => by rw [hgctlMain, h]) hknown words
    | proto opts =>
      exact runs_iff_spelledAs protoOpts (fun opts => .gateway (.proto opts)) (by decide)
        (fun _ _ h => HgctlCommand.proto.inj (MainCommand.gateway.inj h)) (fun _ => rfl)
        (fun _ _ h => by rw [hgctlMain, h]) hknown words
    | bypassAdd opts =>
      exact runs_iff_spelledAs bypassOpts (fun opts => .gateway (.bypassAdd opts)) (by decide)
        (fun _ _ h => HgctlCommand.bypassAdd.inj (MainCommand.gateway.inj h)) (fun _ => rfl)
        (fun _ _ h => by rw [hgctlMain, h]) hknown words
    | bypassDel opts =>
      exact runs_iff_spelledAs bypassOpts (fun opts => .gateway (.bypassDel opts)) (by decide)
        (fun _ _ h => HgctlCommand.bypassDel.inj (MainCommand.gateway.inj h)) (fun _ => rfl)
        (fun _ _ h => by rw [hgctlMain, h]) hknown words
    | wgAdd opts =>
      exact runs_iff_spelledAs wgOpts (fun opts => .gateway (.wgAdd opts)) (by decide)
        (fun _ _ h => HgctlCommand.wgAdd.inj (MainCommand.gateway.inj h)) (fun _ => rfl)
        (fun _ _ h => by rw [hgctlMain, h]) hknown words
    | wgDel opts =>
      exact runs_iff_spelledAs wgOpts (fun opts => .gateway (.wgDel opts)) (by decide)
        (fun _ _ h => HgctlCommand.wgDel.inj (MainCommand.gateway.inj h)) (fun _ => rfl)
        (fun _ _ h => by rw [hgctlMain, h]) hknown words
    | showClients qsort fuel opts =>
      exact runs_iff_spelledAs ifaceOpts
        (fun opts => .gateway (.showClients lib.qsort lib.fuel opts)) (by decide)
        (fun _ _ h => (HgctlCommand.showClients.inj (MainCommand.gateway.inj h)).2.2) (fun _ => rfl)
        (fun _ _ h => by rw [hgctlMain, h]) hknown words
    | details clockText opts =>
      exact runs_iff_spelledAs detailsOpts (fun opts => .gateway (.details lib.clockText opts))
        (by decide) (fun _ _ h => (HgctlCommand.details.inj (MainCommand.gateway.inj h)).2)
        (fun _ => rfl) (fun _ _ h => by rw [hgctlMain, h]) hknown words
    | help =>
      cases words with
      | nil => simp [hgctlMain, MainCommand.withLib, MainCommand.Spelled]
      | cons word args =>
        have hbad := hgParseOpcode_badOp_iff word
        simp only [MainCommand.Spelled, List.head?_cons, Option.mem_def, Option.some.injEq,
          forall_eq', ← hbad, hgctlMain]
        cases hgParseOpcode word <;> simp [MainCommand.withLib]

/-- An argument that looks like the end of the options is an argument. -/
theorem hgctl_runs_spelled_add :
    hgctlMain ⟨⟨fun _ l => l, fun _ l => .refl l⟩, 0, fun _ => []⟩
        ["ADD".toList, "-ibr0".toList, "now".toList, "--cl".toList, "--".toList] =
      .gateway (.add [.iface "br0".toList, .client "--".toList]) := by
  refine (hgctl_runs_iff_spelled _ (.gateway (.add [.iface "br0".toList, .client "--".toList]))
    (by simp [MainCommand.Known]) _).mpr ⟨by decide, ?_⟩
  exact .letter (by decide) rfl (by decide)
    (.stray (.inr (by decide)) (.separate "--".toList (by decide) .nil))

end HawkGate
