import GuestControl.Proofs.Toml.Structures
import GuestControl.Settings.Loading

/-!
# One document, two readers

The settings of machine control are read alone or as part of the agent's settings. Either
way each setting is what the document gives for it, or its default, whatever else the
document holds. A setting that cannot be read fails both readers. Only the agent's own
settings can make one reader fail and not the other.
-/

namespace GuestControl.Settings

open Toml (Members Settles Tree exists_or_refused)
open Toml.Decoder (parts_cons parts_nil members_eq_parts optional_string_eq_some
  optional_uint16_eq_some optional_uint64_eq_some optional_struct_eq_some)

variable {text text' : String} {ms ms' : Members} {t? : Option Tree} {c : Control} {a : Agent}

-- ---------------------------------------------------------------------------
-- Machine control
-- ---------------------------------------------------------------------------

structure Given where
  shell : Option Tree
  service : Option Tree
  transitionSeconds : Option Tree
  pollMilliseconds : Option Tree

namespace Given

def control? (ms : Members) : Option Tree := ms.lookup "hyperv"

def readiness? (ms : Members) : Option Tree := (control? ms).bind (·.part? "service" 1)

/-- Each setting stands under its key, or in its place where an array is written. -/
def of (ms : Members) : Given where
  shell := (control? ms).bind (·.part? "shell" 0)
  service := (readiness? ms).bind (·.part? "name" 0)
  transitionSeconds := (readiness? ms).bind (·.part? "transition_timeout_secs" 1)
  pollMilliseconds := (readiness? ms).bind (·.part? "poll_interval_ms" 2)

/-- Where the settings should stand there is something that can hold them, or nothing. -/
structure IsHeld (ms : Members) : Prop where
  control : ∀ t ∈ control? ms, t.IsStructure
  readiness : ∀ t ∈ readiness? ms, t.IsStructure

/-- One of the settings is given and cannot be read. -/
inductive IsUnfit (g : Given) : Prop
  | shell {t : Tree} : g.shell = some t → (∀ s, t ≠ .string s) → IsUnfit g
  | service {t : Tree} : g.service = some t → (∀ s, t ≠ .string s) → IsUnfit g
  | transitionSeconds {t : Tree} : g.transitionSeconds = some t →
      (∀ i : Int64, t = .integer i → i.toInt < 0) → IsUnfit g
  | pollMilliseconds {t : Tree} : g.pollMilliseconds = some t →
      (∀ i : Int64, t = .integer i → i.toInt < 0) → IsUnfit g

end Given

/-- The settings are those that are given, and the defaults where nothing is given. -/
structure Control.Follows (c : Control) (g : Given) : Prop where
  shell : Settles Tree.IsString "powershell" g.shell c.shell
  service : Settles Tree.IsString "vmms" g.service c.readiness.service
  transitionSeconds : Settles (fun t (n : UInt64) => t.IsNatural n.toNat) 3 g.transitionSeconds
    c.readiness.transitionSeconds
  pollMilliseconds : Settles (fun t (n : UInt64) => t.IsNatural n.toNat) 250 g.pollMilliseconds
    c.readiness.pollMilliseconds

theorem Readiness.optional_eq_some {r : Readiness} :
    decoder.optional {} t? = some r ↔ (∀ t ∈ t?, t.IsStructure) ∧
      Settles Tree.IsString "vmms" (t?.bind (·.part? "name" 0)) r.service ∧
      Settles (fun t (n : UInt64) => t.IsNatural n.toNat) 3
        (t?.bind (·.part? "transition_timeout_secs" 1)) r.transitionSeconds ∧
      Settles (fun t (n : UInt64) => t.IsNatural n.toNat) 250
        (t?.bind (·.part? "poll_interval_ms" 2)) r.pollMilliseconds := by
  rw [decoder, optional_struct_eq_some]
  simp only [fields, parts_cons Readiness.service, parts_cons Readiness.transitionSeconds,
    parts_cons Readiness.pollMilliseconds, parts_nil, optional_string_eq_some,
    optional_uint64_eq_some]
  constructor
  · rintro ⟨hheld, _, hservice, _, htransition, _, hpoll, rfl⟩
    exact ⟨hheld, hservice, htransition, hpoll⟩
  · rintro ⟨hheld, hservice, htransition, hpoll⟩
    exact ⟨hheld, _, hservice, _, htransition, _, hpoll, rfl⟩

theorem Control.optional_eq_some :
    decoder.optional {} t? = some c ↔ (∀ t ∈ t?, t.IsStructure) ∧
      Settles Tree.IsString "powershell" (t?.bind (·.part? "shell" 0)) c.shell ∧
      Readiness.decoder.optional {} (t?.bind (·.part? "service" 1)) = some c.readiness := by
  rw [decoder, optional_struct_eq_some]
  simp only [fields, parts_cons Control.shell, parts_cons Control.readiness, parts_nil,
    optional_string_eq_some]
  constructor
  · rintro ⟨hheld, _, hshell, _, hreadiness, rfl⟩
    exact ⟨hheld, hshell, hreadiness⟩
  · rintro ⟨hheld, hshell, hreadiness⟩
    exact ⟨hheld, _, hshell, _, hreadiness, rfl⟩

theorem Control.read_iff :
    decoder.optional {} (ms.lookup "hyperv") = some c ↔ Given.IsHeld ms ∧ c.Follows (.of ms) := by
  rw [Control.optional_eq_some, Readiness.optional_eq_some]
  constructor
  · rintro ⟨hcontrol, hshell, hreadiness, hservice, htransition, hpoll⟩
    exact ⟨⟨hcontrol, hreadiness⟩, hshell, hservice, htransition, hpoll⟩
  · rintro ⟨⟨hcontrol, hreadiness⟩, hshell, hservice, htransition, hpoll⟩
    exact ⟨hcontrol, hshell, hreadiness, hservice, htransition, hpoll⟩

theorem Control.ofToml?_eq_some : ofToml? text = some c ↔
    ∃ ms, Toml.read? text = some ms ∧ Given.IsHeld ms ∧ c.Follows (.of ms) := by
  simp only [ofToml?, Option.bind_eq_some_iff, members_eq_parts _ _ _ 0, field,
    parts_cons fun c => c, parts_nil, exists_eq_right, ← Control.read_iff]

-- ---------------------------------------------------------------------------
-- The agent
-- ---------------------------------------------------------------------------

/-- The server's settings are what is given under their keys or in their places. -/
structure Server.StatedBy (t? : Option Tree) (s : Server) : Prop where
  held : ∀ t ∈ t?, t.IsStructure
  host : Settles Tree.IsString "0.0.0.0" (t?.bind (·.part? "host" 0)) s.host
  port : Settles (fun t (n : UInt16) => t.IsNatural n.toNat) 6001 (t?.bind (·.part? "port" 1)) s.port

structure Logging.StatedBy (t? : Option Tree) (l : Logging) : Prop where
  held : ∀ t ∈ t?, t.IsStructure
  level : Settles Tree.IsString "hvops=info,api=info,tower_http=info" (t?.bind (·.part? "level" 0))
    l.level

theorem Server.optional_eq_some {s : Server} :
    decoder.optional {} t? = some s ↔ s.StatedBy t? := by
  rw [decoder, optional_struct_eq_some]
  simp only [fields, parts_cons Server.host, parts_cons Server.port, parts_nil,
    optional_string_eq_some, optional_uint16_eq_some]
  constructor
  · rintro ⟨hheld, _, hhost, _, hport, rfl⟩
    exact ⟨hheld, hhost, hport⟩
  · rintro ⟨hheld, hhost, hport⟩
    exact ⟨hheld, _, hhost, _, hport, rfl⟩

theorem Server.statedBy_none : Server.StatedBy none {} := Server.optional_eq_some.mp rfl

theorem Logging.optional_eq_some {l : Logging} :
    decoder.optional {} t? = some l ↔ l.StatedBy t? := by
  rw [decoder, optional_struct_eq_some]
  simp only [fields, parts_cons Logging.level, parts_nil, optional_string_eq_some]
  constructor
  · rintro ⟨hheld, _, hlevel, rfl⟩
    exact ⟨hheld, hlevel⟩
  · rintro ⟨hheld, hlevel⟩
    exact ⟨hheld, _, hlevel, rfl⟩

theorem Logging.statedBy_none : Logging.StatedBy none {} := Logging.optional_eq_some.mp rfl

theorem Agent.ofToml?_eq_some : ofToml? text = some a ↔
    ∃ ms, Toml.read? text = some ms ∧ a.server.StatedBy (ms.lookup "server") ∧
      a.logging.StatedBy (ms.lookup "logging") ∧ Given.IsHeld ms ∧ a.control.Follows (.of ms) := by
  simp only [ofToml?, Option.bind_eq_some_iff, members_eq_parts _ _ _ 0, fields,
    parts_cons Agent.server, parts_cons Agent.logging, parts_cons Agent.control, parts_nil,
    ← Server.optional_eq_some, ← Logging.optional_eq_some, ← Control.read_iff]
  constructor
  · rintro ⟨ms, hms, _, hserver, _, hlogging, _, hcontrol, rfl⟩
    exact ⟨ms, hms, hserver, hlogging, hcontrol⟩
  · rintro ⟨ms, hms, hserver, hlogging, hcontrol⟩
    exact ⟨ms, hms, _, hserver, _, hlogging, _, hcontrol, rfl⟩

-- ---------------------------------------------------------------------------
-- Agreement
-- ---------------------------------------------------------------------------

theorem Control.ofToml?_of_agent (h : Agent.ofToml? text = some a) :
    Control.ofToml? text = some a.control := by
  obtain ⟨ms, hms, -, -, hheld, hfollows⟩ := Agent.ofToml?_eq_some.mp h
  exact Control.ofToml?_eq_some.mpr ⟨ms, hms, hheld, hfollows⟩

theorem Agent.ofToml?_of_control (h : Control.ofToml? text = some c) (hnone : ofToml? text = none) :
    ∃ ms, Toml.read? text = some ms ∧
      ((∃ t, ms.lookup "server" = some t ∧ ∀ s : Server, ¬ s.StatedBy (some t)) ∨
        ∃ t, ms.lookup "logging" = some t ∧ ∀ l : Logging, ¬ l.StatedBy (some t)) := by
  obtain ⟨ms, hms, hheld, hfollows⟩ := Control.ofToml?_eq_some.mp h
  refine ⟨ms, hms, ?_⟩
  obtain ⟨s, hs⟩ | hserver := exists_or_refused Server.statedBy_none (ms.lookup "server")
  · obtain ⟨l, hl⟩ | hlogging := exists_or_refused Logging.statedBy_none (ms.lookup "logging")
    · have hagent : ofToml? text = some { server := s, logging := l, control := c } :=
        Agent.ofToml?_eq_some.mpr ⟨ms, hms, hs, hl, hheld, hfollows⟩
      rw [hnone] at hagent
      cases hagent
    · exact .inr hlogging
  · exact .inl hserver

theorem Control.ofToml?_congr (hms : Toml.read? text = some ms) (hms' : Toml.read? text' = some ms')
    (hgiven : Given.of ms = Given.of ms') (hheld : Given.IsHeld ms ↔ Given.IsHeld ms') :
    ofToml? text = ofToml? text' := by
  ext c
  simp [Control.ofToml?_eq_some, hms, hms', hgiven, hheld]

theorem Control.Follows.not_unfit {g : Given} (h : c.Follows g) : ¬ g.IsUnfit := by
  have hstring {x s : String} {t : Tree} (hs : Settles Tree.IsString x (some t) s)
      (hbad : ∀ s, t ≠ .string s) : False := by
    have hgives : t.IsString s := Toml.settles_some.mp hs
    exact hbad s hgives
  have hnatural {x n : UInt64} {t : Tree}
      (hn : Settles (fun t (n : UInt64) => t.IsNatural n.toNat) x (some t) n)
      (hbad : ∀ i : Int64, t = .integer i → i.toInt < 0) : False := by
    obtain ⟨i, hi, hvalue⟩ := Toml.settles_some.mp hn
    have hnegative := hbad i hi
    omega
  intro hunfit
  cases hunfit with
  | shell hgiven hbad => exact hstring (hgiven ▸ h.shell) hbad
  | service hgiven hbad => exact hstring (hgiven ▸ h.service) hbad
  | transitionSeconds hgiven hbad => exact hnatural (hgiven ▸ h.transitionSeconds) hbad
  | pollMilliseconds hgiven hbad => exact hnatural (hgiven ▸ h.pollMilliseconds) hbad

theorem Control.ofToml?_of_unfit (hms : Toml.read? text = some ms) (h : (Given.of ms).IsUnfit) :
    ofToml? text = none := by
  rw [Option.eq_none_iff_forall_ne_some]
  intro c hc
  obtain ⟨ms', hms', -, hfollows⟩ := Control.ofToml?_eq_some.mp hc
  obtain rfl := Option.some.inj (hms.symm.trans hms')
  exact hfollows.not_unfit h

structure ReadAlike (text : String) : Prop where
  control_of_agent : ∀ a, Agent.ofToml? text = some a → Control.ofToml? text = some a.control
  agent_of_control : ∀ c, Control.ofToml? text = some c → Agent.ofToml? text = none →
    ∃ ms, Toml.read? text = some ms ∧
      ((∃ t, ms.lookup "server" = some t ∧ ∀ s : Server, ¬ s.StatedBy (some t)) ∨
        ∃ t, ms.lookup "logging" = some t ∧ ∀ l : Logging, ¬ l.StatedBy (some t))
  control_iff : ∀ c, Control.ofToml? text = some c ↔
    ∃ ms, Toml.read? text = some ms ∧ Given.IsHeld ms ∧ c.Follows (.of ms)
  agent_iff : ∀ a, Agent.ofToml? text = some a ↔
    ∃ ms, Toml.read? text = some ms ∧ a.server.StatedBy (ms.lookup "server") ∧
      a.logging.StatedBy (ms.lookup "logging") ∧ Given.IsHeld ms ∧ a.control.Follows (.of ms)
  independent : ∀ text' ms ms', Toml.read? text = some ms → Toml.read? text' = some ms' →
    Given.of ms = Given.of ms' → (Given.IsHeld ms ↔ Given.IsHeld ms') →
    Control.ofToml? text = Control.ofToml? text' ∧
      ∀ a a', Agent.ofToml? text = some a → Agent.ofToml? text' = some a' → a.control = a'.control
  whole : ∀ ms, Toml.read? text = some ms → (Given.of ms).IsUnfit →
    Control.ofToml? text = none ∧ Agent.ofToml? text = none

/-- The two readers find the same settings of machine control, each where it is given and
by default elsewhere, and both refuse a document in which one of them cannot be read. -/
theorem readers_agree (text : String) : ReadAlike text where
  control_of_agent _ h := Control.ofToml?_of_agent h
  agent_of_control _ h := Agent.ofToml?_of_control h
  control_iff _ := Control.ofToml?_eq_some
  agent_iff _ := Agent.ofToml?_eq_some
  independent text' ms ms' hms hms' hgiven hheld := by
    have hsame := Control.ofToml?_congr hms hms' hgiven hheld
    refine ⟨hsame, fun a a' ha ha' => ?_⟩
    rw [Control.ofToml?_of_agent ha, Control.ofToml?_of_agent ha'] at hsame
    exact Option.some.inj hsame
  whole ms hms h := by
    have hnone := Control.ofToml?_of_unfit hms h
    refine ⟨hnone, Option.eq_none_iff_forall_ne_some.mpr fun a ha => ?_⟩
    rw [Control.ofToml?_of_agent ha] at hnone
    cases hnone

example : Control.ofToml? "hyperv = ['pwsh', ['vmcompute', 5]]\nserver = 3" =
      some { shell := "pwsh", readiness := { service := "vmcompute", transitionSeconds := 5 } } ∧
    Agent.ofToml? "hyperv = ['pwsh', ['vmcompute', 5]]\nserver = 3" = none ∧
    Agent.ofToml? "[hyperv.service]\ncolour = 1\n[server]\nport = 80" =
      some { server := { port := 80 } } ∧
    Control.ofToml? "[hyperv.service]\nname = 'x'\npoll_interval_ms = -1" = none := by
  decide +kernel

theorem load_control_of_agent {file : File} (h : load Agent.ofToml? {} file = .ok a) :
    load Control.ofToml? {} file = .ok a.control := by
  cases file with
  | absent =>
    cases h
    rfl
  | directory => cases h
  | octets content =>
    cases htext : Text.Utf8.strict? content with
    | none => simp [load, htext] at h
    | some text =>
      cases hagent : Agent.ofToml? text with
      | none => simp [load, htext, hagent] at h
      | some a' =>
        obtain rfl : a' = a := by simpa [load, htext, hagent] using h
        simp [load, htext, Control.ofToml?_of_agent hagent]

end GuestControl.Settings
