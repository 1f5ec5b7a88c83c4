import RdtProtocol.Client.Parser
import RdtProtocol.Server.Parser

/-!
This module contains the language of the files that a client starts up from, and that a file in which
settings have been written gives them back.
-/

def PortField (port : UInt16) (s rest : Bytes) : Prop :=
  ∃ negative n, Text.Number negative n s rest ∧ uint16 (signed negative n) = port ∧ n < 2 ^ 16

def IntField (x : Int) (s rest : Bytes) : Prop :=
  ∃ negative n, Text.Number negative n s rest ∧ signed negative n = x ∧ -2 ^ 31 ≤ x ∧ x < 2 ^ 31

inductive ClientSettings.Fields : Bytes → ClientSettings → Prop where
  | mk {s s1 s2 s3 s4 s5 rest : Bytes} {settings : ClientSettings}
      : Text.Word settings.serverIp s s1 → PortField settings.serverPortNo s1 s2
          → PortField settings.localPortNo s2 s3 → Text.Word settings.config.reqFileName s3 s4
          → IntField settings.config.defaultWindowSize s4 s5 → Text.Word settings.config.mode.name s5 rest
          → ClientSettings.Fields s settings

theorem portField_of_extractNumber {i : Istream} (h : (i.extractNumber 0 Istream.convertUInt16).2.good = true)
    : ∃ port rest, i.good = true ∧ PortField port i.rest rest
        ∧ i.extractNumber 0 Istream.convertUInt16 = (some port, Istream.advance rest) := by
  obtain ⟨negative, n, rest, hgood, hnumber, hfits, heq⟩ := Istream.number_of_extractNumber h
  obtain ⟨hport, hn⟩ := Istream.convertUInt16_eq_true_iff.mp (Prod.ext hfits rfl)
  exact ⟨_, rest, hgood, ⟨negative, n, hnumber, hport, hn⟩, heq⟩

theorem PortField.extractNumber {port : UInt16} {s rest : Bytes} (h : PortField port s rest)
    : (Istream.advance s).extractNumber 0 Istream.convertUInt16 = (some port, Istream.advance rest) := by
  obtain ⟨negative, n, hnumber, hport⟩ := h
  rw [Istream.extractNumber_of_number (Istream.advance_good hnumber.ne_nil) hnumber,
    Istream.convertUInt16_eq_true_iff.mpr hport]
  rfl

theorem IntField.extractNumber {x : Int} {s rest : Bytes} (h : IntField x s rest)
    : (Istream.advance s).extractNumber 0 Istream.convertInt = (some x, Istream.advance rest) := by
  obtain ⟨negative, n, hnumber, hx⟩ := h
  rw [Istream.extractNumber_of_number (Istream.advance_good hnumber.ne_nil) hnumber,
    Istream.convertInt_eq_true_iff.mpr hx]
  rfl

theorem intField_of_extractNumber {i : Istream} (h : (i.extractNumber 0 Istream.convertInt).2.good = true)
    : ∃ x rest, i.good = true ∧ IntField x i.rest rest
        ∧ i.extractNumber 0 Istream.convertInt = (some x, Istream.advance rest) := by
  obtain ⟨negative, n, rest, hgood, hnumber, hfits, heq⟩ := Istream.number_of_extractNumber h
  have hx := Istream.convertInt_eq_true_iff.mp (Prod.ext hfits rfl)
  exact ⟨_, rest, hgood, ⟨negative, n, hnumber, hx⟩, heq⟩

namespace Client

theorem setMode_eq_ok_iff {modeStr : Bytes} {mode : Mode}
    : setMode modeStr = .ok mode ↔ modeStr = mode.name := by
  apply Mode.ite_name_eq_ok_iff .stopAndWait .selectiveRepeat .goBackN
  cases mode <;> simp

theorem clientMode_of_init {p : ClientParser} {settings : ClientSettings} (h : init p = .ok settings)
    : p.clientMode = settings.config.mode.name := by
  simp only [init, bind_eq_ok_iff, setMode_eq_ok_iff] at h
  obtain ⟨_, _, _, _, mode, hmode, _, _, hpure⟩ := h
  cases hpure
  exact hmode

theorem init_of_some (ip : Bytes) (port localPort : UInt16) (name : Bytes) (window : Int) (mode : Mode)
    : init ⟨ip, some port, some localPort, name, some window, mode.name⟩
        = .ok ⟨ip, port, localPort, mode, name, window⟩ := by
  cases mode
  . rfl
  . rfl
  . rfl

theorem fields_of_clientMode {s : Bytes} (h : (ClientParser.new s).clientMode ≠ [])
    : ∃ ip port localPort name window mode s1 s2 s3 s4 s5 rest,
        Text.Word ip s s1 ∧ PortField port s1 s2 ∧ PortField localPort s2 s3 ∧ Text.Word name s3 s4
          ∧ IntField window s4 s5 ∧ Text.Word mode s5 rest
          ∧ ClientParser.new s = ⟨ip, some port, some localPort, name, some window, mode⟩ := by
  simp only [ClientParser.new] at h ⊢
  obtain ⟨mode, rest, hgood5, hmode, heq5⟩ := Istream.word_of_extractString h
  obtain ⟨window, s5, hgood4, hwindow, heq4⟩ := intField_of_extractNumber hgood5
  obtain ⟨name, s4, hgood3, hname, heq3⟩ := Istream.word_of_extractString (Istream.extractString_ne_nil hgood4)
  obtain ⟨localPort, s3, hgood2, hlocal, heq2⟩ := portField_of_extractNumber hgood3
  obtain ⟨port, s2, hgood1, hport, heq1⟩ := portField_of_extractNumber hgood2
  obtain ⟨ip, s1, hgood, hip, heq⟩ := Istream.word_of_extractString (Istream.extractString_ne_nil hgood1)
  simp only [heq] at *
  simp only [heq1] at *
  simp only [heq2] at *
  simp only [heq3] at *
  simp only [heq4] at *
  simp only [heq5]
  exact ⟨ip, port, localPort, name, window, mode, s1, s2, s3, s4, s5, rest, hip, hport, hlocal, hname,
    hwindow, hmode, rfl⟩

theorem new_of_fields {s : Bytes} {settings : ClientSettings} (h : settings.Fields s)
    : ClientParser.new s
        = ⟨settings.serverIp, some settings.serverPortNo, some settings.localPortNo, settings.config.reqFileName,
            some settings.config.defaultWindowSize, settings.config.mode.name⟩ := by
  cases h with
  | mk hip hport hlocal hname hwindow hmode =>
    have hstring {word s rest : Bytes} (h : Text.Word word s rest)
        : (Istream.advance s).extractString = (word, Istream.advance rest) :=
      Istream.extractString_of_word (Istream.advance_good h.ne_nil.2) h
    simp only [ClientParser.new, Istream.new_eq_advance hip.ne_nil.2, hstring hip, hport.extractNumber,
      hlocal.extractNumber, hstring hname, hwindow.extractNumber, hstring hmode]

theorem init_eq_ok_iff {s : Bytes} {settings : ClientSettings}
    : init (ClientParser.new s) = .ok settings ↔ settings.Fields s := by
  constructor
  . intro h
    obtain ⟨mode, hname⟩ : ∃ mode : Mode, (ClientParser.new s).clientMode = mode.name :=
      ⟨_, clientMode_of_init h⟩
    have hne : (ClientParser.new s).clientMode ≠ [] := by
      rw [hname]
      cases mode <;> decide
    obtain ⟨ip, port, localPort, name, window, modeStr, s1, s2, s3, s4, s5, rest, hip, hport, hlocal, hreq,
      hwindow, hmode, heq⟩ := fields_of_clientMode hne
    rw [heq] at hname h
    change modeStr = mode.name at hname
    subst hname
    rw [init_of_some] at h
    cases h
    exact .mk hip hport hlocal hreq hwindow hmode
  . intro h
    rw [new_of_fields h, init_of_some]

end Client

namespace ClientSettings

structure Valid (settings : ClientSettings) : Prop where
  serverIp : settings.serverIp ≠ [] ∧ ∀ c ∈ settings.serverIp, Text.isSpace c = false
  reqFileName : settings.config.reqFileName ≠ [] ∧ ∀ c ∈ settings.config.reqFileName, Text.isSpace c = false
  defaultWindowSize
    : -2 ^ 31 ≤ settings.config.defaultWindowSize ∧ settings.config.defaultWindowSize < 2 ^ 31

def argsFile (settings : ClientSettings) (spaces : Nat → Bytes) (rest : Bytes) : Bytes :=
  spaces 0 ++ (settings.serverIp
    ++ (spaces 1 ++ (Text.numeral settings.serverPortNo.toNat
      ++ (spaces 2 ++ (Text.numeral settings.localPortNo.toNat
        ++ (spaces 3 ++ (settings.config.reqFileName
          ++ (spaces 4 ++ (Text.intNumeral settings.config.defaultWindowSize
            ++ (spaces 5 ++ (settings.config.mode.name ++ rest)))))))))))

theorem fields_argsFile {settings : ClientSettings} (h : settings.Valid) {spaces : Nat → Bytes}
    (hspaces : ∀ i, ∀ c ∈ spaces i, Text.isSpace c = true) (hne : ∀ i, spaces (i + 1) ≠ []) {rest : Bytes}
    (hrest : ∀ c ∈ rest.head?, Text.isSpace c = true)
    : settings.Fields (settings.argsFile spaces rest) := by
  have hhead (i : Nat) (s : Bytes) : ∀ c ∈ (spaces (i + 1) ++ s).head?, Text.isSpace c = true := by
    intro c hc
    rw [List.head?_append_of_ne_nil _ (hne i)] at hc
    exact hspaces (i + 1) c (List.mem_of_mem_head? hc)
  have hdigit (i : Nat) (s : Bytes) : ∀ c ∈ (spaces (i + 1) ++ s).head?, Text.isDigit c = false := by
    intro c hc
    have := hhead i s c hc
    by_contra hdigit
    rw [Text.not_isSpace_of_isDigit (by simpa using hdigit)] at this
    contradiction
  have hport (i : Nat) (port : UInt16) (s : Bytes)
      : PortField port (spaces i ++ (Text.numeral port.toNat ++ (spaces (i + 1) ++ s))) (spaces (i + 1) ++ s) :=
    ⟨_, _, Text.number_numeral (hspaces i) (hdigit i s) port.toNat, uint16_natCast port, port.toNat_lt⟩
  have hname : settings.config.mode.name ≠ [] ∧ ∀ c ∈ settings.config.mode.name, Text.isSpace c = false := by
    cases settings.config.mode <;> decide +kernel
  exact .mk (.mk (hspaces 0) h.serverIp.1 h.serverIp.2 (hhead 0 _)) (hport 1 _ _) (hport 2 _ _)
    (.mk (hspaces 3) h.reqFileName.1 h.reqFileName.2 (hhead 3 _))
    ⟨_, _, Text.number_intNumeral (hspaces 4) (hdigit 4 _) _, signed_natAbs _, h.defaultWindowSize⟩
    (.mk (hspaces 5) hname.1 hname.2 hrest)

end ClientSettings

theorem Client.init_argsFile {settings : ClientSettings} (h : settings.Valid) {spaces : Nat → Bytes}
    (hspaces : ∀ i, ∀ c ∈ spaces i, Text.isSpace c = true) (hne : ∀ i, spaces (i + 1) ≠ []) {rest : Bytes}
    (hrest : ∀ c ∈ rest.head?, Text.isSpace c = true)
    : init (ClientParser.new (settings.argsFile spaces rest)) = .ok settings := by
  rw [new_of_fields (settings.fields_argsFile h hspaces hne hrest), init_of_some]

def sampleClientSettings : ClientSettings :=
  {
    serverIp := ascii "127.0.0.1"
    serverPortNo := 8080
    localPortNo := 54321
    config := {
      mode := .stopAndWait
      reqFileName := ascii "video"
      defaultWindowSize := 1
    }
  }

theorem Client.init_sampleClientSettings
    : init (ClientParser.new (sampleClientSettings.argsFile (fun _ => [13, 10]) [])) = .ok sampleClientSettings := by
  have hvalid : sampleClientSettings.Valid := {
    serverIp := by decide +kernel
    reqFileName := by decide +kernel
    defaultWindowSize := by decide
  }
  exact init_argsFile hvalid (fun _ => by decide +kernel) (fun _ => by decide) (by decide +kernel)
