import Ai4iCore.Base.Pool
import Mathlib

/-!
# The sync of the alert configuration

`SyncService._do_sync` from its first write on, with `write_yaml_file` and the two reloads
(config_renderer.py). What the three files are to hold is rendered by then; their paths differ. A
sync keeps `_lock` to its end, so the syncs of the process come one after another, each with
whatever fails in it; it may also be cancelled or die with the process at any operation.

A rule file is written to `<path>.tmp` and renamed, so it always holds what it held at the start
or the whole of what some sync rendered (`rule_files_whole`). The Alertmanager file is written in
place, and a sync that is cut off leaves it broken. A sync that returned `True` is in force until
the next one, also when a server starts again (`synced_until_next`).
-/

namespace Ai4iCore.Alert.ConfigSync

open Concurrent StepSystem

abbrev Text := List Char

/-- The files of a sync, in the order they are written. -/
inductive Target
  | application | infrastructure | alertmanager
deriving DecidableEq

inductive Server
  | prometheus | alertmanager

inductive File
  | absent
  /-- opened for writing, and not closed with all of it -/
  | broken
  | whole (text : Text)

structure Store where
  /-- the file, or with `true` its `.tmp` -/
  file : Target × Bool → File
  /-- the rule files Prometheus has loaded -/
  prometheus : File × File
  /-- the file Alertmanager has loaded -/
  alertmanager : File

structure Setup where
  path : Target → Text
  /-- `str.lower` -/
  lower : Text → Text

/-- A call of `_do_sync`: `yaml.dump` of what it rendered, and which failures are an `OSError`,
by file and number of attempts left. -/
structure Cycle where
  text : Target → Text
  osError : Target → Nat → Bool

/-! ## Files and servers -/

inductive Op
  /-- `os.makedirs`, and `open(path, "w")` -/
  | truncate (p : Target × Bool)
  | write (p : Target × Bool) (text : Text)
  /-- `validate_prometheus_config`, which fails where promtool refuses the rules -/
  | validate
  /-- `os.replace(temp_path, file_path)` -/
  | replace (t : Target)
  /-- `os.remove(temp_path)`, if it exists -/
  | remove (t : Target)
  | reload (server : Server)

def Store.put (s : Store) (p : Target × Bool) (f : File) : Store :=
  { s with file := Function.update s.file p f }

/-- A server reads its files, at a reload or when it starts. -/
def Store.load (s : Store) : Server → Store
  | .prometheus =>
    { s with prometheus := (s.file (.application, false), s.file (.infrastructure, false)) }
  | .alertmanager => { s with alertmanager := s.file (.alertmanager, false) }

def exec : Op → Store → Store × Unit
  | .truncate p, s => (s.put p .broken, ())
  | .write p text, s => (s.put p (.whole text), ())
  | .validate, s => (s, ())
  | .replace t, s => ((s.put (t, false) (s.file (t, true))).put (t, true) .absent, ())
  | .remove t, s => (s.put (t, true) .absent, ())
  | .reload server, s => (s.load server, ())

abbrev signature : Signature where
  Op := Op
  Res _ := Unit
  Err := Unit
  ioError := ()

abbrev perform (o : Op) : Prog signature Unit := Prog.perform (S := signature) o

/-! ## `write_yaml_file` -/

/-- `os.path.basename`. -/
def basename (path : Text) : Text := (path.reverse.takeWhile (· ≠ '/')).reverse

/-- `is_alertmanager`: the file is written in place. -/
def Setup.isAlertmanager (setup : Setup) (t : Target) : Bool :=
  setup.path t = [] || decide ("alertmanager".toList <:+: setup.lower (basename (setup.path t)))

/-- One attempt in place. -/
def attempt (t : Target) (text : Text) : Prog signature Unit := do
  perform (.truncate (t, false))
  perform (.write (t, false) text)

/-- In place, with so many attempts left after this one. -/
def writeInPlace (osError : Nat → Bool) (t : Target) (text : Text) : Nat → Prog signature Unit
  | 0 => attempt t text
  | left + 1 => (attempt t text).tryCatch fun e =>
      if osError left then writeInPlace osError t text left else .raise e

/-- The `.tmp`, checked for a rule file, and then renamed. -/
def writeRenamed (t : Target) (text : Text) : Prog signature Unit :=
  Prog.tryCatch
    (do
      perform (.truncate (t, true))
      perform (.write (t, true) text)
      if t ≠ .alertmanager then perform .validate
      perform (.replace t))
    fun e => do
      (perform (.remove t)).tryCatch fun _ => pure ()
      .raise e

def writeYamlFile (setup : Setup) (c : Cycle) (t : Target) : Prog signature Unit :=
  if setup.isAlertmanager t then writeInPlace (c.osError t) t (c.text t) 2
  else writeRenamed t (c.text t)

/-- `trigger_prometheus_reload` and `trigger_alertmanager_reload`. -/
def triggerReload (server : Server) : Prog signature Bool :=
  Prog.tryCatch (do perform (.reload server); return true) fun _ => return false

/-- `_do_sync`, from its first write on. -/
def doSync (setup : Setup) (c : Cycle) : Prog signature Bool := do
  writeYamlFile setup c .application
  writeYamlFile setup c .infrastructure
  writeYamlFile setup c .alertmanager
  let prometheusOk ← triggerReload .prometheus
  let alertmanagerOk ← triggerReload .alertmanager
  return prometheusOk && alertmanagerOk

/-- The process with the two servers, which may start again at any time. -/
def service (setup : Setup) : System signature Store Server Cycle Bool where
  exec := exec
  env s server := some (s.load server)
  code := doSync setup

/-! ## One file -/

section OneFile

variable {setup : Setup} {inPlace : Bool} {t : Target} {text : Text} {c : Cycle} {s u : Store}

/-- Between the operations on one file, or its `.tmp`. -/
structure Midway (inPlace : Bool) (t : Target) (text : Text) (s u : Store) : Prop where
  others : ∀ p, p.1 ≠ t → u.file p = s.file p
  file : inPlace = false → u.file (t, false) = s.file (t, false) ∨ u.file (t, false) = .whole text

theorem Midway.put (h : Midway inPlace t text s u) {tmp : Bool} {f : File}
    (hf : tmp = true ∨ inPlace = true ∨ f = .whole text) :
    Midway inPlace t text s (u.put (t, tmp) f) := by
  refine ⟨fun p hp => ?_, fun hplace => ?_⟩
  · rw [← h.others p hp]
    exact Function.update_of_ne (fun heq => hp (congrArg Prod.fst heq)) _ _
  · cases tmp with
    | true => simpa [Store.put] using h.file hplace
    | false =>
      obtain rfl : f = .whole text := by simpa [hplace] using hf
      exact .inr (Function.update_self (t, false) _ _)

abbrev Ended (inPlace : Bool) (t : Target) (text : Text) (s : Store) (p : Prog signature Unit)
    (u : Store) : Prop :=
  Prog.Throughout exec (Midway inPlace t text s)
    (fun _ v => v.file (t, false) = .whole text) p u

theorem attempt_ended (h : Midway true t text s u) : Ended true t text s (attempt t text) u := by
  have hopened : Midway true t text s (u.put (t, false) .broken) := h.put (.inr (.inl rfl))
  have hwritten : Midway true t text s ((u.put (t, false) .broken).put (t, false) (.whole text)) :=
    hopened.put (.inr (.inr rfl))
  refine Prog.throughout_perform h ⟨hopened, ⟨hwritten, ?_⟩, hwritten, hopened⟩
  exact Function.update_self (t, false) _ _

/-- An attempt may start wherever the last one stopped. -/
theorem writeInPlace_ended {osError : Nat → Bool} {left : Nat} (h : Midway true t text s u) :
    Ended true t text s (writeInPlace osError t text left) u := by
  induction left generalizing u with
  | zero => exact attempt_ended h
  | succ left ih =>
    refine Prog.throughout_tryCatch (attempt_ended h) fun e v hv => ?_
    show Ended true t text s (if _ then _ else _) v
    split
    · exact ih hv
    · exact hv

theorem writeRenamed_ended (h : Midway false t text s u) :
    Ended false t text s (writeRenamed t text) u := by
  set v := (u.put (t, true) .broken).put (t, true) (.whole text)
  have hopened : Midway false t text s (u.put (t, true) .broken) := h.put (.inl rfl)
  have hwritten : Midway false t text s v := hopened.put (.inl rfl)
  have hwhole : v.file (t, true) = .whole text := Function.update_self _ _ _
  have hreplaced : Midway false t text s (exec (.replace t) v).1 :=
    (hwritten.put (.inr (.inr hwhole))).put (.inl rfl)
  have hrename : Ended false t text s (perform (.replace t)) v := by
    refine ⟨hwritten, ⟨hreplaced, ?_⟩, hreplaced, hwritten⟩
    simpa [exec, Store.put] using hwhole
  refine Prog.throughout_tryCatch ?_ fun e w hw => ?_
  · refine Prog.throughout_perform h (Prog.throughout_perform hopened ?_)
    show Ended false t text s _ v
    split
    · exact Prog.throughout_perform hwritten hrename
    · exact hrename
  · -- the `.tmp` may be removed or stay
    have hremoved : Midway false t text s (w.put (t, true) .absent) := hw.put (.inl rfl)
    exact ⟨hw, hremoved, hremoved, hw⟩

theorem writeYamlFile_ended (h : Midway (setup.isAlertmanager t) t (c.text t) s u) :
    Ended (setup.isAlertmanager t) t (c.text t) s (writeYamlFile setup c t) u := by
  unfold writeYamlFile
  cases hplace : setup.isAlertmanager t <;> rw [hplace] at h
  · exact writeRenamed_ended h
  · exact writeInPlace_ended h

end OneFile

/-! ## One sync -/

variable (setup : Setup) (c : Cycle)

/-- The files that are renamed hold what they held, or what the sync rendered. -/
def Kept (s u : Store) : Prop :=
  ∀ t, setup.isAlertmanager t = false →
    u.file (t, false) = s.file (t, false) ∨ u.file (t, false) = .whole (c.text t)

/-- The files and the servers have what the sync rendered. -/
structure InForce (u : Store) : Prop where
  files : ∀ t, u.file (t, false) = .whole (c.text t)
  prometheus : u.prometheus = (.whole (c.text .application), .whole (c.text .infrastructure))
  alertmanager : u.alertmanager = .whole (c.text .alertmanager)

variable {setup c} {s u : Store}

theorem Kept.of_midway {t : Target} {v : Store} (h : Kept setup c s u)
    (hv : Midway (setup.isAlertmanager t) t (c.text t) u v) : Kept setup c s v := by
  intro t' ht'
  by_cases heq : t' = t
  · subst heq
    obtain hfile | hfile := hv.file ht'
    · rw [hfile]
      exact h t' ht'
    · exact .inr hfile
  · rw [hv.others (t', false) heq]
    exact h t' ht'

/-- The sync writes one file and goes on. -/
theorem Kept.write (h : Kept setup c s u) (t : Target) {p : Prog signature Bool} {Q}
    (hnext : ∀ v, Kept setup c s v → v.file (t, false) = .whole (c.text t) →
      (∀ t', t' ≠ t → v.file (t', false) = u.file (t', false)) →
      Prog.Throughout exec (Kept setup c s) Q p v) :
    Prog.Throughout exec (Kept setup c s) Q (writeYamlFile setup c t >>= fun _ => p) u := by
  refine Prog.throughout_bind ?_
  refine (writeYamlFile_ended ⟨fun _ _ => rfl, fun _ => .inl rfl⟩).weaken
    (fun v hv => h.of_midway hv) fun _ v hv hfile => ?_
  exact hnext v (h.of_midway hv) hfile fun t' ht' => hv.others (t', false) ht'

/-- A sync keeps the rule files whole, and is in force when it returns `True`. -/
theorem doSync_throughout (s : Store) :
    Prog.Throughout exec (Kept setup c s) (fun ok v => ok = true → InForce c v)
      (doSync setup c) s := by
  have hstart : Kept setup c s s := fun _ _ => .inl rfl
  refine hstart.write .application fun u₁ h₁ happlication _ => ?_
  refine h₁.write .infrastructure fun u₂ h₂ hinfrastructure hothers₂ => ?_
  refine h₂.write .alertmanager fun u h halertmanager hothers => ?_
  have hfiles : ∀ t, u.file (t, false) = .whole (c.text t)
    | .application => by rw [hothers _ (by simp), hothers₂ _ (by simp), happlication]
    | .infrastructure => by rw [hothers _ (by simp), hinfrastructure]
    | .alertmanager => halertmanager
  have hforce : InForce c ((u.load .prometheus).load .alertmanager) :=
    ⟨hfiles, Prod.ext (hfiles _) (hfiles _), hfiles _⟩
  -- either reload may fail, and its server may have loaded the files all the same
  refine ⟨h, ⟨h, ⟨h, ?_⟩, ⟨h, ?_⟩, h, ?_⟩, ⟨h, ⟨h, ?_⟩, ⟨h, ?_⟩, h, ?_⟩, h, ⟨h, ?_⟩, ⟨h, ?_⟩, h, ?_⟩
  · exact fun _ => hforce
  all_goals
    rintro ⟨⟩

theorem InForce.load (h : InForce c u) (server : Server) : InForce c (u.load server) := by
  cases server with
  | prometheus => exact ⟨h.files, Prod.ext (h.files _) (h.files _), h.alertmanager⟩
  | alertmanager => exact ⟨h.files, h.prometheus, h.files _⟩

/-! ## Runs -/

variable (setup) in
/-- Whatever fails, and wherever a sync is cut off, a file that is renamed into place holds what
it held at the start or the whole of what a sync of the run rendered for it. -/
theorem rule_files_whole {ms : List (Move Server Cycle)}
    (hrun : Run (service setup).serialStep s ms u) (t : Target)
    (ht : setup.isAlertmanager t = false) :
    u.file (t, false) = s.file (t, false) ∨
      ∃ c ios, .request c ios ∈ ms ∧ u.file (t, false) = .whole (c.text t) := by
  induction ms generalizing s with
  | nil => exact .inl (congrArg (·.file (t, false)) (run_nil_iff.mp hrun).symm)
  | cons m ms ih =>
    obtain ⟨v, hstep, hrest⟩ := run_cons_iff.mp hrun
    obtain hfile | ⟨c, ios, hmem, hfile⟩ := ih hrest
    · rw [hfile]
      cases m with
      | env server =>
        cases hstep
        cases server <;> exact .inl rfl
      | request c ios =>
        cases hstep
        exact ((doSync_throughout s).execute ios t ht).imp_right fun hwhole =>
          ⟨c, ios, List.mem_cons_self, hwhole⟩
    · exact .inr ⟨c, ios, List.mem_cons_of_mem _ hmem, hfile⟩

def localPaths : Setup where
  path
    | .application => "rules/application-alerts.yml".toList
    | .infrastructure => "rules/infrastructure-alerts.yml".toList
    | .alertmanager => "alertmanager.yml".toList
  lower := List.map Char.toLower

def noAlerts : Cycle := ⟨fun _ => "groups: []".toList, fun _ _ => true⟩

def bare : Store := ⟨fun _ => .absent, (.absent, .absent), .absent⟩

/-- The process dies while the second rule file is checked. -/
def cutShort : List (Move Server Cycle) :=
  [.request noAlerts (List.replicate 6 .ok), .env .prometheus]

theorem rule_files_whole_cut_short :
    let u := final (service localPaths).serialStep bare cutShort
    u.file (.application, false) = .absent ∨ ∃ c ios, .request c ios ∈ cutShort ∧
      u.file (.application, false) = .whole (c.text .application) :=
  rule_files_whole localPaths (run_final (s := bare) rfl) .application (by decide)

variable (setup c) in
/-- Whatever fails on the way, a sync that returns `True` is in force until the next one: however
often the servers start again, the files and both servers have what it rendered. -/
theorem synced_until_next (s : Store) :
    Prog.Throughout exec (Kept setup c s)
      (fun ok u => ok = true → ∀ servers : List Server, InForce c (servers.foldl Store.load u))
      (doSync setup c) s := by
  refine (doSync_throughout s).weaken (fun _ h => h) fun ok u hkept hok htrue servers => ?_
  have hforce : InForce c u := hok htrue
  clear hkept hok
  induction servers generalizing u with
  | nil => exact hforce
  | cons server servers ih => exact ih _ (hforce.load server)

end Ai4iCore.Alert.ConfigSync
