import Mathlib.Data.List.Forall2
import RdtProtocol.Server.PacketSenderLemmas
import RdtProtocol.Server.Parser

/-!
This module contains the language of the files that the server starts up from, and that a file in which
settings have been written gives them back.
-/

def IntLine (line : Bytes) (x : Int) : Prop :=
  ∃ negative n rest, Text.Number negative n line rest ∧ signed negative n = x ∧ -2 ^ 31 ≤ x ∧ x < 2 ^ 31

theorem stoi_eq_ok_iff_intLine {line : Bytes} {x : Int} : stoi line = .ok x ↔ IntLine line x :=
  stoi_eq_ok_iff

instance (line : Bytes) (x : Int) : Decidable (IntLine line x) :=
  decidable_of_iff (stoi line = .ok x) stoi_eq_ok_iff_intLine

theorem IntLine.eq {line : Bytes} {x y : Int} (hx : IntLine line x) (hy : IntLine line y) : x = y := by
  rw [← stoi_eq_ok_iff_intLine] at hx hy
  exact Except.ok.inj (hx.symm.trans hy)

theorem mem_iff_of_intLines {lines : List Bytes} {xs : List Int} (h : List.Forall₂ IntLine lines xs) {x : Int}
    : x ∈ xs ↔ ∃ line ∈ lines, IntLine line x := by
  induction h with
  | nil => simp
  | @cons line y lines ys hline hlines ih =>
    have heq : IntLine line x ↔ x = y :=
      ⟨fun hx => hx.eq hline, fun heq => heq ▸ hline⟩
    simp [ih, heq]

theorem intLine_intNumeral {x : Int} (h : -2 ^ 31 ≤ x ∧ x < 2 ^ 31) : IntLine (Text.intNumeral x) x := by
  have hnumber : Text.Number (decide (x < 0)) x.natAbs ([] ++ (Text.intNumeral x ++ [])) [] :=
    Text.number_intNumeral (by simp) (by simp) x
  rw [List.nil_append, List.append_nil] at hnumber
  exact ⟨_, _, _, hnumber, signed_natAbs x, h⟩

def SeedLine (line : Bytes) (seed : UInt32) : Prop :=
  ∃ negative n rest, Text.Number negative n line rest ∧ n < 2 ^ 64
    ∧ (uint64 (signed negative n)).toUInt32 = seed

theorem seedLine_numeral (seed : UInt32) : SeedLine (Text.numeral seed.toNat) seed := by
  have hnumber : Text.Number false seed.toNat ([] ++ (Text.numeral seed.toNat ++ [])) [] :=
    Text.number_numeral (by simp) (by simp) seed.toNat
  rw [List.nil_append, List.append_nil] at hnumber
  have hlt : (seed.toNat : Int) < 2 ^ 64 := by
    have := seed.toNat_lt
    omega
  refine ⟨_, _, _, hnumber, by omega, ?_⟩
  rw [← UInt32.toNat_inj, UInt64.toNat_toUInt32, show signed false seed.toNat = seed.toNat from rfl,
    toNat_uint64_of_nonneg (by omega) hlt, Int.toNat_natCast, Nat.mod_eq_of_lt seed.toNat_lt]

namespace ServerParser

theorem arg_eq_ok_iff {p : ServerParser} {i : Nat} {a : Bytes}
    : p.arg i = .ok a ↔ p.serverArgs[i]? = some a := by
  unfold arg
  split
  . next h => simp [h]
  . next h => simp [h]

theorem drop_eq_of_arg {p : ServerParser} {i : Nat} {a : Bytes} (h : p.arg i = .ok a)
    : p.serverArgs.drop i = a :: p.serverArgs.drop (i + 1) := by
  rw [List.drop_eq_getElem?_toList_append, arg_eq_ok_iff.mp h]
  rfl

theorem getLossSequence_go_eq_ok_iff {i : Nat} (hi : i < 2 ^ 31) {args : List Bytes} {xs : List Int}
    : getLossSequence.go i args = .ok xs
        ↔ List.Forall₂ IntLine args xs ∧ i + args.length < 2 ^ 31 := by
  induction args generalizing i xs with
  | nil =>
    rw [getLossSequence.go, List.forall₂_nil_left_iff, List.length_nil, Except.ok.injEq]
    exact ⟨fun h => ⟨h.symm, hi⟩, fun h => h.1.symm⟩
  | cons a args ih =>
    simp only [getLossSequence.go, bind_eq_ok_iff, stoi_eq_ok_iff, List.length_cons]
    constructor
    . rintro ⟨x, hx, hrest⟩
      split at hrest
      . contradiction
      . next hne =>
        obtain ⟨xs', hxs', hpure⟩ := bind_eq_ok_iff.mp hrest
        cases hpure
        obtain ⟨hforall, hlength⟩ := (ih (by omega)).mp hxs'
        exact ⟨.cons hx hforall, by omega⟩
    . rintro ⟨hforall, hlength⟩
      cases hforall with
      | @cons _ x _ xs' hx hxs' =>
        refine ⟨x, hx, ?_⟩
        rw [if_neg (by omega)]
        exact bind_eq_ok_iff.mpr ⟨xs', (ih (by omega)).mpr ⟨hxs', by omega⟩, rfl⟩

end ServerParser

namespace Server

theorem setMode_eq_ok_iff {modeStr : Bytes} {mode : Mode}
    : setMode modeStr = .ok mode ↔ modeStr = mode.name := by
  apply Mode.ite_name_eq_ok_iff .selectiveRepeat .goBackN .stopAndWait
  cases mode <;> simp

variable {α : Type} {stof : Bytes → Except Failure α} {settings : Settings α}

inductive SettingsLines (stof : Bytes → Except Failure α) : List Bytes → Settings α → Prop where
  | mk {settings : Settings α} {port window seed probability : Bytes} {loss : List Bytes}
      : IntLine port settings.portNumber → IntLine window settings.maxWindowSize
          → SeedLine seed settings.randomSeed → stof probability = .ok settings.lossProbability
          → List.Forall₂ IntLine loss settings.lossSequence → 5 + loss.length < 2 ^ 31
          → SettingsLines stof (port :: window :: seed :: probability :: settings.serverMode.name :: loss)
              settings

theorem new_eq_ok_iff_settingsLines {p : ServerParser}
    : new stof p = .ok settings ↔ SettingsLines stof p.serverArgs settings := by
  constructor
  . intro h
    simp only [new, ServerParser.getMaxWindowSize, ServerParser.getPortNumber, ServerParser.getRandomSeed,
      ServerParser.getLossProbability, ServerParser.getLossSequence, ServerParser.getServerMode,
      bind_eq_ok_iff, stoi_eq_ok_iff, stoul_eq_ok_iff, setMode_eq_ok_iff] at h
    obtain ⟨maxWindowSize, ⟨window, hwindow, hmax⟩, portNumber, ⟨port, hport, hnumber⟩, randomSeed,
      ⟨seed, hseed, value, ⟨negative, n, rest, hn, hvalue, hlt⟩, hcast⟩, lossProbability,
      ⟨probability, hprobability, hstof⟩, lossSequence, hloss, _, hmode, serverMode, rfl, hpure⟩ := h
    cases hcast
    cases hpure
    rw [ServerParser.getLossSequence_go_eq_ok_iff (by decide)] at hloss
    rw [← p.serverArgs.drop_zero, ServerParser.drop_eq_of_arg hport, ServerParser.drop_eq_of_arg hwindow,
      ServerParser.drop_eq_of_arg hseed, ServerParser.drop_eq_of_arg hprobability,
      ServerParser.drop_eq_of_arg hmode]
    exact @SettingsLines.mk α stof
      { portNumber, maxWindowSize, randomSeed := value.toUInt32, lossProbability, serverMode, lossSequence }
      port window seed probability _ hnumber hmax ⟨negative, n, rest, hn, hlt, by rw [hvalue]⟩ hstof hloss.1
      hloss.2
  . intro h
    obtain ⟨serverArgs⟩ := p
    cases h with
    | mk hnumber hmax hseed hstof hloss hlength =>
      have hgo := (ServerParser.getLossSequence_go_eq_ok_iff (by decide)).mpr ⟨hloss, hlength⟩
      obtain ⟨negative, n, rest, hn, hlt, hcast⟩ := hseed
      have hul := stoul_eq_ok_iff.mpr ⟨negative, n, rest, hn, rfl, hlt⟩
      simp only [new, ServerParser.getRandomSeed, bind_eq_ok_iff]
      exact ⟨_, stoi_eq_ok_iff.mpr hmax, _, stoi_eq_ok_iff.mpr hnumber, _,
        ⟨_, rfl, _, hul, congrArg _ hcast⟩, _, hstof, _, hgo, _, rfl, _, setMode_eq_ok_iff.mpr rfl, rfl⟩

-- With the line ends of another system the name of the mode has one more character. A client does not mind.
theorem new_ne_ok_of_carriageReturn {argsFile : Bytes}
    (h : ∀ line ∈ Text.lines argsFile, line.getLast? = some 13)
    : new stof (ServerParser.new argsFile) ≠ .ok settings := by
  have hname (mode : Mode) : mode.name.getLast? ≠ some 13 := by
    cases mode <;> decide
  intro hok
  rw [new_eq_ok_iff_settingsLines, ServerParser.new] at hok
  generalize Text.lines argsFile = serverArgs at h hok
  cases hok
  exact hname settings.serverMode (h _ (by simp))

theorem run_isSome_iff_of_new {argsFile : Bytes} (h : new stof (ServerParser.new argsFile) = .ok settings)
    {β : Type} [LT β] [DecidableLT β] {cfg : PacketSenderConfig β}
    (hcfg : cfg.lossSequence = settings.lossSequence)
    : (∀ packets, (PacketSender.run cfg packets).isSome = true)
        ↔ (Text.lines argsFile).drop 5 ≠ [] ∧ ∀ line ∈ (Text.lines argsFile).drop 5, ¬IntLine line 0 := by
  rw [new_eq_ok_iff_settingsLines, ServerParser.new] at h
  generalize Text.lines argsFile = serverArgs at h ⊢
  cases h with
  | mk _ _ _ _ hloss hlength =>
    have hint : ∀ x ∈ cfg.lossSequence, -2 ^ 31 ≤ x ∧ x < 2 ^ 31 := by
      intro x hx
      rw [hcfg, mem_iff_of_intLines hloss] at hx
      obtain ⟨line, _, _, _, _, _, _, hbounds⟩ := hx
      exact hbounds
    rw [PacketSender.run_isSome_iff hint, hcfg, mem_iff_of_intLines hloss, not_exists]
    simp only [List.drop_succ_cons, List.drop_zero, ne_eq, ← List.length_eq_zero_iff, hloss.length_eq, not_and]

theorem new_eq_ok_iff {argsFile : Bytes}
    : new stof (ServerParser.new argsFile) = .ok settings
        ↔ ∃ serverArgs, Text.IsLines serverArgs argsFile ∧ SettingsLines stof serverArgs settings := by
  simp only [new_eq_ok_iff_settingsLines, ServerParser.new, ← Text.lines_eq_iff]
  constructor
  . intro h
    exact ⟨_, rfl, h⟩
  . rintro ⟨_, rfl, h⟩
    exact h

namespace Settings

structure Valid (settings : Settings α) : Prop where
  portNumber : -2 ^ 31 ≤ settings.portNumber ∧ settings.portNumber < 2 ^ 31
  maxWindowSize : -2 ^ 31 ≤ settings.maxWindowSize ∧ settings.maxWindowSize < 2 ^ 31
  lossSequence : ∀ x ∈ settings.lossSequence, -2 ^ 31 ≤ x ∧ x < 2 ^ 31
  length : 5 + settings.lossSequence.length < 2 ^ 31

def serverArgs (settings : Settings α) (probability : Bytes) : List Bytes :=
  Text.intNumeral settings.portNumber :: Text.intNumeral settings.maxWindowSize
    :: Text.numeral settings.randomSeed.toNat :: probability :: settings.serverMode.name
    :: settings.lossSequence.map Text.intNumeral

def argsFile (settings : Settings α) (probability : Bytes) : Bytes :=
  Text.unlines (settings.serverArgs probability)

theorem settingsLines_serverArgs {probability : Bytes} (hstof : stof probability = .ok settings.lossProbability)
    (h : settings.Valid)
    : SettingsLines stof (settings.serverArgs probability) settings := by
  apply SettingsLines.mk (intLine_intNumeral h.portNumber) (intLine_intNumeral h.maxWindowSize)
    (seedLine_numeral settings.randomSeed) hstof
  . rw [List.forall₂_map_left_iff, List.forall₂_same]
    intro x hx
    exact intLine_intNumeral (h.lossSequence x hx)
  . rw [List.length_map]
    exact h.length

theorem newline_notMem_serverArgs {probability : Bytes} (h : Text.newline ∉ probability)
    : ∀ line ∈ settings.serverArgs probability, Text.newline ∉ line := by
  have hname (mode : Mode) : Text.newline ∉ mode.name := by
    cases mode <;> decide
  simp only [serverArgs, List.forall_mem_cons, List.forall_mem_map]
  exact ⟨Text.newline_notMem_intNumeral _, Text.newline_notMem_intNumeral _, Text.newline_notMem_numeral _,
    h, hname _, fun x _ => Text.newline_notMem_intNumeral x⟩

end Settings

theorem new_argsFile {probability : Bytes} (hstof : stof probability = .ok settings.lossProbability)
    (hnewline : Text.newline ∉ probability) (h : settings.Valid)
    : new stof (ServerParser.new (settings.argsFile probability)) = .ok settings := by
  have hlines := Text.lines_unlines (settings.newline_notMem_serverArgs hnewline)
  rw [new_eq_ok_iff_settingsLines, ServerParser.new, Settings.argsFile, hlines]
  exact settings.settingsLines_serverArgs hstof h

def sampleSettings : Settings Rat :=
  {
    portNumber := 8080
    maxWindowSize := 2000
    randomSeed := 495
    lossProbability := 1 / 2
    serverMode := .selectiveRepeat
    lossSequence := [100, 3, 14]
  }

def sampleStof (s : Bytes) : Except Failure Rat :=
  if s = ascii "0.5" then .ok (1 / 2) else .error .invalidArgument

theorem new_sampleSettings
    : new sampleStof (ServerParser.new (sampleSettings.argsFile (ascii "0.5"))) = .ok sampleSettings := by
  have hvalid : sampleSettings.Valid := {
    portNumber := by decide
    maxWindowSize := by decide
    lossSequence := by decide
    length := by decide
  }
  exact new_argsFile rfl (by decide) hvalid

theorem run_sampleSettings
    : (PacketSender.run
        { PacketSender.samplePacketSenderConfig with lossSequence := sampleSettings.lossSequence }
        (List.replicate 103 (DataPacket.new [7] 1))).isSome
          = true := by
  have h : new sampleStof (ServerParser.new (sampleSettings.argsFile (ascii "0.5"))) = .ok sampleSettings := by
    decide +kernel
  exact (run_isSome_iff_of_new h rfl).mpr ⟨by decide +kernel, by decide +kernel⟩ _

end Server
