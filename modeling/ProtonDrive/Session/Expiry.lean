import ProtonDrive.Core.Scripted
import ProtonDrive.Session.Rotation
import ProtonDrive.Session.Stores

/-!
# The expiry of a token over a restart

An instant is counted from the beginning of a process, and means nothing to the next one; what is stored is
the expiry on the system clock, in whole seconds.

* `Elapses boot`        the clocks of a process that counts its instants from `boot`, between two moments;
* `written_expiry`      the expiry that is stored is at most two seconds early, and not late;
* `read_expiry`         the instant that is made of it is at most one second late;
* `resumed_sleeps`      after a restart the refresh loop sleeps until about a minute before the token expires,
                        however often the process was restarted in between.
-/

set_option linter.unusedVariables false

namespace ProtonDrive
open Encoding Effects Api Paths

/-! ## two clocks -/

/-- what happens between the moments `t` and `t'`, in nanoseconds since the epoch -/
inductive Elapses (boot : Nat) : Nat → Event sessionHost → Nat → Prop
  | now {t m t' n : Nat} (hfrom : t ≤ m) (hto : m ≤ t') (hn : n + boot = m) :
      Elapses boot t ⟨.now, n⟩ t'
  | unixNow {t m t' u : Nat} (hfrom : t ≤ m) (hto : m ≤ t') (hu : u = m / NANOS_PER_SEC) :
      Elapses boot t ⟨.unixNow, u⟩ t'
  | other {t t' : Nat} {e : Event sessionHost} (h : t ≤ t') (hnow : e.call ≠ .now)
      (hunix : e.call ≠ .unixNow) : Elapses boot t e t'

section
variable {boot t t' : Nat} {tr : Trace sessionHost}

theorem Elapses.le {e : Event sessionHost} (h : Elapses boot t e t') : t ≤ t' := by
  cases h with
  | now hfrom hto _ => exact Nat.le_trans hfrom hto
  | unixNow hfrom hto _ => exact Nat.le_trans hfrom hto
  | other h _ _ => exact h

theorem elapsed_le (h : Path (Elapses boot) t tr t') : t ≤ t' := by
  induction h with
  | nil => exact Nat.le_refl _
  | cons he _ ih => exact Nat.le_trans he.le ih

theorem Elapses.now_inv {n : Nat} (h : Elapses boot t ⟨.now, n⟩ t') : t ≤ n + boot ∧ n + boot ≤ t' := by
  cases h with
  | now hfrom hto hn =>
    rw [hn]
    exact ⟨hfrom, hto⟩
  | other _ hnow _ => exact absurd rfl hnow

theorem Elapses.unixNow_inv {u : Nat} (h : Elapses boot t ⟨.unixNow, u⟩ t') :
    ∃ m, t ≤ m ∧ m ≤ t' ∧ u = m / NANOS_PER_SEC := by
  cases h with
  | unixNow hfrom hto hu => exact ⟨_, hfrom, hto, hu⟩
  | other _ _ hunix => exact absurd rfl hunix

/-! ## what is stored -/

/-- the seconds since the epoch fit into 64 bits -/
def ClockFits (t : Nat) : Prop := t < 2 ^ 64 * NANOS_PER_SEC

theorem expiresAtUnix_bounds {u n x m : Nat} (hu : u = m / NANOS_PER_SEC) (hle : m ≤ n + boot)
    (hnow : ClockFits m) (hexp : ClockFits (x + boot)) :
    (expiresAtUnix u n x * NANOS_PER_SEC ≤ max m (x + boot)) ∧
      x + boot ≤ expiresAtUnix u n x * NANOS_PER_SEC + 2 * NANOS_PER_SEC + (n + boot - m) := by
  unfold ClockFits at hnow hexp
  unfold expiresAtUnix
  simp only [NANOS_PER_SEC] at *
  omega

theorem writeSessionFile_ok {uid accessToken : String} {x : Nat}
    (h : Runs (writeSessionFile uid accessToken x).run tr (.done (.ok ()))) : ∃ u n : Nat,
    tr = [⟨.unixNow, u⟩, ⟨.now, n⟩, ⟨.writeFile .session (sessionDoc uid accessToken u n x), .ok ()⟩] := by
  obtain ⟨u, t₁, u₁, rfl, h₁, k₁⟩ := h.bindE_ok
  obtain ⟨n, t₂, u₂, rfl, h₂, k₂⟩ := k₁.bindE_ok
  obtain ⟨written, t₃, u₃, rfl, h₃, k₃⟩ := k₂.bindE_ok
  obtain rfl := ask_ok h₁
  obtain rfl := ask_ok h₂
  obtain rfl := ask_ok h₃
  obtain ⟨rfl, rfl⟩ := orFail_ok k₃
  exact ⟨u, n, rfl⟩

end

section
variable {boot t t' x : Nat} {tr : Trace sessionHost} {s s' : Stores} {uid accessToken : String}

/-- the stored expiry is not late, and early by two seconds and the time the write took at most -/
theorem written_expiry (h : Runs (writeSessionFile uid accessToken x).run tr (.done (.ok ())))
    (hs : Path Serves s tr s') (ht : Path (Elapses boot) t tr t') (hnow : ClockFits t')
    (hexp : ClockFits (x + boot)) :
    ∃ sf, s'.readFile .session SessionFile.ofJson = some sf ∧ sf.accessToken = accessToken ∧
      sf.expiresAtUnix * NANOS_PER_SEC ≤ max t' (x + boot) ∧
      x + boot ≤ sf.expiresAtUnix * NANOS_PER_SEC + 2 * NANOS_PER_SEC + (t' - t) := by
  obtain ⟨u, n, rfl⟩ := writeSessionFile_ok h
  cases ht with
  | cons hunix ht =>
    cases ht with
    | cons hclock hlast =>
      obtain ⟨m, hfrom, hto, hu⟩ := hunix.unixNow_inv
      obtain ⟨hafter, hbefore⟩ := hclock.now_inv
      have hend := elapsed_le hlast
      have hfits : ClockFits m := by
        unfold ClockFits at *
        omega
      obtain ⟨hlate, hearly⟩ := expiresAtUnix_bounds (x := x) hu (Nat.le_trans hto hafter) hfits hexp
      cases hs with
      | cons hs₁ hs =>
        cases hs with
        | cons hs₂ hs =>
          obtain rfl := hs.one_inv.writeFile_inv
          refine ⟨_, Stores.readFile_setFile.trans (sessionDoc_read uid accessToken u n x), rfl, ?_, ?_⟩
          · show expiresAtUnix u n x * NANOS_PER_SEC ≤ max t' (x + boot)
            omega
          · show x + boot ≤ expiresAtUnix u n x * NANOS_PER_SEC + 2 * NANOS_PER_SEC + (t' - t)
            omega

/-! ## what is made of it -/

/-- the instant that is restored is not early, and late by a second and the time the reading took at most,
if it is not over -/
theorem read_expiry {st : SessionState} (h : Runs fromKeyring.run tr (.done (.ok st)))
    (hs : Path Serves s tr s') (ht : Path (Elapses boot) t tr t') : ∃ sf,
    s.readFile .session SessionFile.ofJson = some sf ∧ st.accessToken = sf.accessToken ∧
      sf.expiresAtUnix * NANOS_PER_SEC ≤ st.expiresAt + boot ∧
      st.expiresAt + boot ≤ max t' (sf.expiresAtUnix * NANOS_PER_SEC + NANOS_PER_SEC + (t' - t)) := by
  obtain ⟨sf, t₁, u₁, rfl, h₁, k₁⟩ := h.bindE_ok
  obtain ⟨kp, t₂, u₂, rfl, h₂, k₂⟩ := k₁.bindE_ok
  obtain ⟨u, t₃, u₃, rfl, h₃, k₃⟩ := k₂.bindE_ok
  obtain ⟨n, t₄, u₄, rfl, h₄, k₄⟩ := k₃.bindE_ok
  obtain ⟨rfl, rfl⟩ := done_inv k₄
  obtain rfl := ask_ok h₃
  obtain rfl := ask_ok h₄
  obtain ⟨text, rfl, hsf⟩ := loadSessionFile_ok h₁
  have hread : s.readFile .session SessionFile.ofJson = some sf := by
    cases hs with
    | cons hread _ =>
      unfold Stores.readFile
      rw [hread.readFile_inv.2]
      exact hsf
  obtain ⟨m₁, hm₁, hrest⟩ := ht.append_inv
  obtain ⟨m₂, hm₂, hclocks⟩ := hrest.append_inv
  refine ⟨sf, hread, rfl, ?_⟩
  cases hclocks with
  | cons hunix hlast =>
    obtain ⟨m, hfrom, hto, rfl⟩ := hunix.unixNow_inv
    obtain ⟨hafter, hbefore⟩ := (Path.one_inv hlast).now_inv
    have hstart := elapsed_le hm₁
    have hloaded := elapsed_le hm₂
    show sf.expiresAtUnix * NANOS_PER_SEC ≤
        n + (sf.expiresAtUnix - m / NANOS_PER_SEC) * NANOS_PER_SEC + boot ∧
      n + (sf.expiresAtUnix - m / NANOS_PER_SEC) * NANOS_PER_SEC + boot ≤
        max t' (sf.expiresAtUnix * NANOS_PER_SEC + NANOS_PER_SEC + (t' - t))
    simp only [NANOS_PER_SEC] at *
    omega

end

/-! ## the first sleep of the loop -/

section
variable {K : Crates} {fuel : Nat} {o : Outcome (Except SessionManagerError Unit)}

/-- a run of a call that has come to a later event than its first -/
theorem later_inv {α : Type} {c : SessionCall} {k : c.Ans → Prog sessionHost α} {pre : Trace sessionHost}
    {e : Event sessionHost} {o : Outcome α} (h : Runs (.call c k) (pre ++ [e]) o) (he : e.call ≠ c) :
    ∃ a pre', pre = ⟨c, a⟩ :: pre' ∧ Runs (k a) (pre' ++ [e]) o := by
  rcases Runs.call_inv h with ⟨hnil, _⟩ | ⟨a, t, heq, k₁⟩
  · simp at hnil
  · cases pre with
    | nil =>
      obtain ⟨rfl, _⟩ := List.cons.inj heq
      exact absurd rfl he
    | cons e₁ pre' =>
      obtain ⟨rfl, rfl⟩ := List.cons.inj heq
      exact ⟨a, pre', rfl, k₁⟩

theorem loop_first_sleep {pre post : Trace sessionHost} {i : Nat}
    (h : Runs (proactiveRefreshLoop K fuel).run (pre ++ ⟨.sleepUntil i, ()⟩ :: post) o)
    (hfirst : ∀ e ∈ pre, ∀ j, e.call ≠ .sleepUntil j) : ∃ (seen : SessionState) (n n' : Nat),
    pre = [⟨.readState, seen⟩, ⟨.now, n⟩, ⟨.now, n'⟩] ∧ i = n' + sleepDuration seen.expiresAt n := by
  have hshort : Runs (proactiveRefreshLoop K fuel).run (pre ++ [⟨.sleepUntil i, ()⟩]) .running := by
    have heq : pre ++ ⟨.sleepUntil i, ()⟩ :: post = (pre ++ [⟨.sleepUntil i, ()⟩]) ++ post := by simp
    rw [heq] at h
    exact h.take _
  cases fuel with
  | zero =>
    generalize heq : pre ++ [(⟨.sleepUntil i, ()⟩ : Event sessionHost)] = l at hshort
    have hnil : l = [] := by
      cases hshort
      rfl
    rw [hnil] at heq
    simp at heq
  | succ fuel =>
    obtain ⟨seen, pre₁, rfl, k₁⟩ := later_inv hshort nofun
    obtain ⟨n, pre₂, rfl, k₂⟩ := later_inv k₁ nofun
    obtain ⟨n', pre₃, rfl, k₃⟩ := later_inv k₂ nofun
    refine ⟨seen, n, n', ?_⟩
    rcases Runs.call_inv k₃ with ⟨hnil, _⟩ | ⟨_, t, heq, _⟩
    · simp at hnil
    · cases pre₃ with
      | nil =>
        have hcall := congrArg Event.call (List.cons.inj heq).1
        exact ⟨rfl, SessionCall.sleepUntil.inj hcall⟩
      | cons e pre₃ =>
        obtain ⟨rfl, _⟩ := List.cons.inj heq
        exact absurd rfl (hfirst _ (.tail _ (.tail _ (.tail _ (.head _)))) _)

end

/-! ## a restart -/

/-- `stored` is the stored expiry, `good` the real one, and `s` a second -/
theorem wake_bounds {s stored good expiresAt boot n n' i spent t₁ t₂ t₃ t₄ : Nat}
    (hlate : stored ≤ max t₁ good) (hearly : good ≤ stored + 2 * s + spent)
    (hlow : stored ≤ expiresAt + boot) (hhigh : expiresAt + boot ≤ max t₃ (stored + s + (t₃ - t₂)))
    (hi : i = n' + max (expiresAt - (n + 60 * s)) s) (h₁₂ : t₁ ≤ t₂) (h₂₃ : t₂ ≤ t₃)
    (hn : t₃ ≤ n + boot) (hn' : n + boot ≤ n' + boot) (hend : n' + boot ≤ t₄) :
    good ≤ i + boot + 62 * s + spent ∧ i + boot + 59 * s ≤ max (t₄ + 60 * s) (good + (t₄ - t₂)) := by
  omega

section
variable {K : Crates} {uid accessToken : String} {boot boot' t₀ t₁ t₂ t₃ t₄ x i fuel : Nat}
  {tr₁ tr₂ pre post : Trace sessionHost} {s₀ s₁ s₂ s₃ : Stores} {st : SessionState}
  {o : Outcome (Except SessionManagerError Unit)}

/-- a process stores a token that is good until `x`; another process resumes the session some time later,
and its refresh loop goes to sleep: it asks to be woken a minute before the expiry, up to two seconds earlier
or one second later and the time that the steps themselves have taken, or a second from now if it is too late
for that -/
theorem resumed_sleeps
    (hwrite : Runs (writeSessionFile uid accessToken x).run tr₁ (.done (.ok ())))
    (hs₁ : Path Serves s₀ tr₁ s₁) (ht₁ : Path (Elapses boot) t₀ tr₁ t₁)
    (hkept : s₂.file .session = s₁.file .session) (hlater : t₁ ≤ t₂)
    (hresume : Runs fromKeyring.run tr₂ (.done (.ok st))) (hs₂ : Path Serves s₂ tr₂ s₃)
    (ht₂ : Path (Elapses boot') t₂ tr₂ t₃)
    (hloop : Runs (proactiveRefreshLoop K fuel).run (pre ++ ⟨.sleepUntil i, ()⟩ :: post) o)
    (hfirst : ∀ e ∈ pre, ∀ j, e.call ≠ .sleepUntil j)
    (hread : ∀ seen : SessionState, ⟨.readState, seen⟩ ∈ pre → seen = st)
    (ht₃ : Path (Elapses boot') t₃ pre t₄) (hnow : ClockFits t₁) (hexp : ClockFits (x + boot)) :
    st.accessToken = accessToken ∧
      x + boot ≤ i + boot' + 62 * NANOS_PER_SEC + (t₁ - t₀) ∧
      i + boot' + 59 * NANOS_PER_SEC ≤ max (t₄ + 60 * NANOS_PER_SEC) (x + boot + (t₄ - t₂)) := by
  obtain ⟨sf, hsf, htoken, hlate, hearly⟩ := written_expiry hwrite hs₁ ht₁ hnow hexp
  obtain ⟨sf', hsf', htoken', hlow, hhigh⟩ := read_expiry hresume hs₂ ht₂
  have hsame : s₂.readFile .session SessionFile.ofJson = s₁.readFile .session SessionFile.ofJson := by
    unfold Stores.readFile
    rw [hkept]
  cases hsf'.symm.trans (hsame.trans hsf)
  refine ⟨htoken'.trans htoken, ?_⟩
  obtain ⟨seen, n, n', rfl, hi⟩ := loop_first_sleep hloop hfirst
  obtain rfl := hread seen List.mem_cons_self
  cases ht₃ with
  | cons hstate ht₃ =>
    cases ht₃ with
    | cons hclock ht₃ =>
      obtain ⟨hn, hn₂⟩ := hclock.now_inv
      obtain ⟨hn', hend⟩ := (Path.one_inv ht₃).now_inv
      exact wake_bounds hlate hearly hlow hhigh hi hlater (elapsed_le ht₂) (Nat.le_trans hstate.le hn)
        (Nat.le_trans hn₂ hn') hend

end

/-! ## a restart after ten seconds -/

def issuedTrace : Trace sessionHost :=
  [⟨.unixNow, (0 : Nat)⟩, ⟨.now, (0 : Nat)⟩, ⟨.writeFile .session (sessionDoc "u" "a0" 0 0 TOKEN_LIFE), .ok ()⟩]

def tenSeconds : Nat := 10 * NANOS_PER_SEC

/-- the stores of the keyring entry and the session file -/
def issuedStores : Stores where
  keyring _ := some (some (secretDoc "u" "r0" "kp"))
  file _ := some (some (sessionDoc "u" "a0" 0 0 TOKEN_LIFE))

def restartTrace : Trace sessionHost :=
  [⟨.readFile .session, .ok (some (sessionDoc "u" "a0" 0 0 TOKEN_LIFE))⟩,
    ⟨.getKeyring "u", .ok (some (secretDoc "u" "r0" "kp"))⟩,
    ⟨.unixNow, tenSeconds / NANOS_PER_SEC⟩, ⟨.now, (0 : Nat)⟩]

def issuedFile : SessionFile where
  uid := "u"
  accessToken := "a0"
  expiresAtUnix := expiresAtUnix 0 0 TOKEN_LIFE
  appVersion := defaultAppVersion
  baseUrl := defaultBaseUrl

theorem restart_runs : ∃ st, Runs fromKeyring.run restartTrace (.done (.ok st)) := by
  have hdoc : Runs (readText "SessionFile" SessionFile.ofJson (some (sessionDoc "u" "a0" 0 0 TOKEN_LIFE))).run
      [] (.done (.ok issuedFile)) := readText_runs (sessionDoc_read "u" "a0" 0 0 TOKEN_LIFE)
  have hpayload : Runs (readText "KeyringPayload" KeyringPayload.ofJson (some (secretDoc "u" "r0" "kp"))).run
      [] (.done (.ok ⟨"u", "r0", "kp"⟩)) := readText_runs (secretDoc_read "u" "r0" "kp")
  have hsession : Runs loadSessionFile.run
      [⟨.readFile .session, .ok (some (sessionDoc "u" "a0" 0 0 TOKEN_LIFE))⟩] (.done (.ok issuedFile)) :=
    .call hdoc
  have hloaded : Runs (loadKeyring "u").run [⟨.getKeyring "u", .ok (some (secretDoc "u" "r0" "kp"))⟩]
      (.done (.ok ⟨"u", "r0", "kp"⟩)) := .call hpayload
  have hsecret : Runs (loadSecret "u").run [⟨.getKeyring "u", .ok (some (secretDoc "u" "r0" "kp"))⟩]
      (.done (.ok ⟨"u", "r0", "kp"⟩)) := by
    unfold loadSecret
    exact caught_runs hloaded (.ret _)
  exact ⟨_, Runs.bindE hsession (Runs.bindE hsecret (.call (.call (.ret _))))⟩

/-- the loop asks to be woken between 1738 and 1741 seconds later, by the clock of its process -/
theorem restart_sleeps : ∃ (K : Crates) (st : SessionState) (i : Nat),
    Runs fromKeyring.run restartTrace (.done (.ok st)) ∧
    Runs (proactiveRefreshLoop K 1).run ([⟨.readState, st⟩, ⟨.now, (0 : Nat)⟩, ⟨.now, (0 : Nat)⟩] ++
      ⟨.sleepUntil i, ()⟩ :: []) .running ∧
    TOKEN_LIFE + 0 ≤ i + tenSeconds + 62 * NANOS_PER_SEC + (0 - 0) ∧
    i + tenSeconds + 59 * NANOS_PER_SEC ≤
      max (tenSeconds + 60 * NANOS_PER_SEC) (TOKEN_LIFE + 0 + (tenSeconds - tenSeconds)) := by
  obtain ⟨st, hrestart⟩ := restart_runs
  have hwrite : Runs (writeSessionFile "u" "a0" TOKEN_LIFE).run issuedTrace (.done (.ok ())) :=
    .call (.call (.call (.ret _)))
  have hstored : Path Serves issuedStores issuedTrace
      (issuedStores.setFile .session (some (some (sessionDoc "u" "a0" 0 0 TOKEN_LIFE)))) :=
    .cons (.other _ rfl) (.cons (.other _ rfl) (.one (.writeFile _ _ _)))
  have hissued : Path (Elapses 0) 0 issuedTrace 0 :=
    .cons (.unixNow (m := 0) (Nat.le_refl 0) (Nat.le_refl 0) rfl)
      (.cons (.now (Nat.le_refl 0) (Nat.le_refl 0) rfl) (.one (.other (Nat.le_refl 0) nofun nofun)))
  have hread : Path Serves issuedStores restartTrace issuedStores :=
    .cons (.readFile rfl) (.cons (.getKeyring rfl) (.cons (.other _ rfl) (.one (.other _ rfl))))
  have hten := Nat.le_refl tenSeconds
  have hrestarted : Path (Elapses tenSeconds) tenSeconds restartTrace tenSeconds :=
    .cons (.other hten nofun nofun) (.cons (.other hten nofun nofun)
      (.cons (.unixNow (m := tenSeconds) hten hten rfl) (.one (.now hten hten (Nat.zero_add _)))))
  have hasked : Path (Elapses tenSeconds) tenSeconds
      [⟨.readState, st⟩, ⟨.now, (0 : Nat)⟩, ⟨.now, (0 : Nat)⟩] tenSeconds :=
    .cons (.other hten nofun nofun) (.cons (.now hten hten (Nat.zero_add _))
      (.one (.now hten hten (Nat.zero_add _))))
  have hloop : Runs (proactiveRefreshLoop (smallCrates []) 1).run
      ([⟨.readState, st⟩, ⟨.now, (0 : Nat)⟩, ⟨.now, (0 : Nat)⟩] ++
        ⟨.sleepUntil (0 + sleepDuration st.expiresAt 0), ()⟩ :: []) .running :=
    .call (.call (.call (.call (.stop _))))
  have hsame : ∀ seen : SessionState, (⟨.readState, seen⟩ : Event sessionHost) ∈
      ([⟨.readState, st⟩, ⟨.now, (0 : Nat)⟩, ⟨.now, (0 : Nat)⟩] : Trace sessionHost) → seen = st := by
    intro seen hmem
    obtain _ | ⟨_, _ | ⟨_, _ | ⟨_, hnil⟩⟩⟩ := hmem
    · rfl
    · cases hnil
  have hkept : issuedStores.file .session = (issuedStores.setFile .session
      (some (some (sessionDoc "u" "a0" 0 0 TOKEN_LIFE)))).file .session := (Stores.setFile_file _ _ _).symm
  obtain ⟨_, hearly, hlate⟩ := resumed_sleeps hwrite hstored hissued hkept (Nat.zero_le _) hrestart hread
    hrestarted hloop (by simp) hsame hasked (by unfold ClockFits NANOS_PER_SEC; omega)
    (by unfold ClockFits TOKEN_LIFE NANOS_PER_SEC; omega)
  exact ⟨smallCrates [], st, _, hrestart, hloop, hearly, hlate⟩

end ProtonDrive
