import Mgd.Config
import Mgd.Config.Loading

/-!
# A configuration file, and the built-in one

`RawConfig` is what the TOML parser makes of a file, as far as `compile` does
more with it than to copy it: the default priority, the `[[apps]]` and
`[[protect]]` patterns, the category priorities, the RAM target and the `[psi]`
block.  The other sections are copied field by field, patterns compiled and
minutes turned into seconds; they are a parameter.

`builtinConfig` is `config/priorities.toml`, which the daemon embeds.
-/

namespace Mgd.Config.Builtin

open Mgd.Config.Loading Mgd.Lib.AssocMap

/-- One `[[apps]]` table. -/
structure AppEntry where
  pattern : String
  priority : Nat
  checkpoint : Option Bool
  autoKillIdleAfter : Option Nat
deriving DecidableEq

structure RawConfig (ρ : Type) where
  /-- `[defaults] priority`, 50 when missing -/
  priority : Option Nat
  /-- `[defaults] log_keep`, 10 when missing -/
  logKeep : Option Nat
  apps : List AppEntry
  /-- the patterns of the `[[protect]]` tables -/
  protect : List String
  categoryPriorities : Map String Nat
  targetAvailablePct : Option F64
  psi : RawPsi
  /-- every other section -/
  rest : ρ

/-- The `[[apps]]` of the built-in file, in its order. -/
def builtinApps : List AppEntry :=
  [ ⟨"^(kworker|ksoftirqd|migration|kswapd|oom_reaper|kthreadd|kcompactd|" ++
      "khugepaged|kauditd|watchdogd|rcu_)", 10, none, none⟩
  , ⟨"^mgd$", 0, none, none⟩
  , ⟨"^irq/", 10, none, none⟩
  , ⟨"^(jbd2/|btrfs-|jfs)", 10, none, none⟩
  , ⟨"^(systemd|systemd-journald|systemd-journal|systemd-logind|" ++
      "systemd-udevd|systemd-resolve|systemd-hostnam|systemd-machine|" ++
      "systemd-userdbd|systemd-userwor|kthreadd)$", 10, none, none⟩
  , ⟨"^(kwin_wayland|kwin_wayland_wr|kwin_x11|Xwayland|xdg-desktop-por|" ++
      "xdg-desktop-portal|xdg-desktop-portal-kde|xdg-document-po|" ++
      "xdg-permission-)$", 10, none, none⟩
  , ⟨"^(pipewire|pipewire-pulse|wireplumber|pulseaudio|rtkit-daemon|passimd)$", 10, none, none⟩
  , ⟨"^(plasmashell|kded6|kded5|ksmserver|kscreenlocker_greet|" ++
      "startplasma-way|xembedsniproxy|xwaylandvideobr|xsettingsd|sddm)$", 10, none, none⟩
  , ⟨"^pinentry", 10, none, none⟩
  , ⟨"^(dbus-broker|dbus-broker-lau)$", 10, none, none⟩
  , ⟨"^(NetworkManager|wpa_supplicant|avahi-daemon)$", 10, none, none⟩
  , ⟨"^(polkitd|polkit-kde-auth)$", 10, none, none⟩
  , ⟨"^(ibus-daemon|ibus-dconf|ibus-engine-sim|ibus-extension-|" ++
      "ibus-portal|ibus-ui-gtk3|ibus-x11|ibus-)$", 10, none, none⟩
  , ⟨"^(rustrover|webstorm|idea|clion|goland|pycharm|rider|studio)$", 35, none, none⟩
  , ⟨"^(postgres|postgresql|mariadbd|mysqld|mongod|redis-server)$", 35, none, none⟩
  , ⟨"^(qemu-system-|qemu-kvm|qemu)$", 30, none, none⟩
  , ⟨"^(code|code-oss|codium|zed|zeditor|cursor|Cursor|windsurf|Windsurf|" ++
      "Typora)$", 38, none, none⟩
  , ⟨"^(claude|kiro-cli|kiro-cli-chat)$", 40, none, none⟩
  , ⟨"^(zoom|teams|skypeforlinux)$", 42, none, none⟩
  , ⟨"^(chromium|chrome|brave|librewolf)$", 45, none, none⟩
  , ⟨"^firefox$", 75, none, none⟩
  , ⟨"^(dockerd|containerd|containerd-shim)$", 45, none, none⟩
  , ⟨"^(obs|obs-studio|vlc|mpv|celluloid)$", 47, none, none⟩
  , ⟨"^(gimp|inkscape|krita|blender)$", 47, none, none⟩
  , ⟨"^(libreoffice|soffice)$", 48, none, none⟩
  , ⟨"^(anydesk|remmina|tigervnc|virt-manager)$", 48, none, none⟩
  , ⟨"^(kate|kwrite|gedit|gnome-text-editor)$", 50, none, none⟩
  , ⟨"^(dolphin|nautilus|thunar)$", 50, none, none⟩
  , ⟨"^(konsole|alacritty|kitty|gnome-terminal|wezterm|foot|cosmic-term)$", 50, none, none⟩
  , ⟨"^kwalletd", 52, none, none⟩
  , ⟨"^(okular|gwenview|eog|evince)$", 52, none, none⟩
  , ⟨"^(thunderbird|kmail)$", 52, none, none⟩
  , ⟨"^(node|python|python3|bun|uv|ruby|java)$", 55, none, none⟩
  , ⟨"^(telegram-desktop|discord|slack|signal-desktop)$", 55, none, none⟩
  , ⟨"^(LocalSend|localsend|localsend_app)$", 55, none, none⟩
  , ⟨"^(systemsettings|org_kde_powerde|kaccess|kdeconnectd|kunifiedpush-di)$", 55, none, none⟩
  , ⟨"^(spectacle|flameshot)$", 58, none, some 300⟩
  , ⟨"^(spotify|Spotify)$", 62, none, none⟩
  , ⟨"^(torbrowser-laun|tor-browser)$", 62, none, none⟩
  , ⟨"^tor$", 72, none, none⟩
  , ⟨"^(korganizer|kontact|kaddressbook|kmail2|knotes|akregator)$", 52, none, none⟩
  , ⟨"^(ark|filelight|kfind|kolourpaint|kcalc|kcolorchooser|kruler|kcharselect)$", 65, none, none⟩
  , ⟨"^(kdenlive|elisa|haruna|kamoso|kwave|kmix)$", 60, none, none⟩
  , ⟨"^(plasma-systemmonitor|ksystemstats|kinfocenter|krdc|krfb|kleopatra|" ++
      "kgpg|kdesu)$", 58, none, none⟩
  , ⟨"^(krunner|baloorunner)$", 65, none, none⟩
  , ⟨"^kactivitymanage$", 68, none, none⟩
  , ⟨"^(plasma-browser-|WebExtensions)$", 68, none, none⟩
  , ⟨"^(thermald|tuned|tuned-ppd|intel_lpmd|iio-sensor-prox)$", 10, none, none⟩
  , ⟨"^(geoclue|geoclue-2.0)$", 58, none, none⟩
  , ⟨"^(bluetoothd|obexd|ModemManager)$", 70, none, none⟩
  , ⟨"^(plasma-discover|gnome-software|packagekitd|dnf|rpm|zypper|apt|" ++
      "fwupd|snapd)$", 75, none, none⟩
  , ⟨"^(baloo_file|baloo_file_extractor|localsearch-3|localsearch-ext|" ++
      "tracker-miner-fs|tracker-extract-3)$", 78, none, none⟩
  , ⟨"^akonadi", 72, none, none⟩
  , ⟨"^(zeitgeist-datahub|zeitgeist-fts)$", 75, none, none⟩
  , ⟨"^(steam|steamwebhelper)$", 72, none, none⟩
  , ⟨"^(cupsd|cups)$", 72, none, none⟩
  , ⟨"^(jetbrains-toolb|jetbrainsd|fsnotifier)$", 70, none, none⟩
  , ⟨"^gvfs", 72, none, none⟩
  , ⟨"^(speech-dispatch|sd_|sd-pam)$", 75, none, none⟩
  , ⟨"^(Isolated|Isolated Servic|Isolated Web Co|Privileged Cont|" ++
      "Socket Process|RDD Process|Utility Process|Web Content|" ++
      "WebExtensions|file:// Content|cef_server)$", 80, none, none⟩
  , ⟨"^full-line-infer$", 85, none, none⟩
  , ⟨"^(cargo|make|cmake|ninja|gradle|mvn|npm|yarn|pnpm|bun-run)$", 70, none, none⟩
  , ⟨"^(rustc|cc1|c\\+\\+|ld|lld|mold)$", 85, none, none⟩
  , ⟨"^(rygel|minidlna|jellyfin)$", 82, none, none⟩
  , ⟨"^(abrt-applet|abrtd|abrt-dbus|abrt-dump-journ|crashhelper|" ++
      "drkonqi-coredum)$", 88, none, none⟩
  , ⟨"^(gameoverlayui|reaper|fossilize_replay)$", 88, none, none⟩
  , ⟨"^(msedge|microsoft-edge)$", 90, none, none⟩
  , ⟨"^(update-notifier|update-manager|DiscoverNotifie)$", 90, none, none⟩
  , ⟨"^(memwatch\\.sh|psimon)$", 85, none, none⟩
  , ⟨"^docker-proxy$", 88, none, none⟩ ]

/-- Its `[category_priorities]`; `log_keep` follows them in the file and is one
of them. -/
def builtinCategoryPriorities : List (String × Nat) :=
  [("Game", 30), ("Development", 42), ("Office", 52), ("Science", 52), ("Education", 52),
   ("Graphics", 50), ("Network", 58), ("System", 58), ("Settings", 60), ("AudioVideo", 62),
   ("Audio", 62), ("Video", 60), ("Utility", 65), ("log_keep", 10)]

/-- The built-in file with the sections not shown here. -/
def builtinConfig {ρ : Type} (rest : ρ) : RawConfig ρ where
  priority := some 50
  logKeep := none
  apps := builtinApps
  protect := []
  categoryPriorities := insertAll Prod.fst Prod.snd ∅ builtinCategoryPriorities
  targetAvailablePct := none
  psi := ⟨none, none, none, none, none⟩
  rest := rest

theorem builtinApps_priority_le : ∀ app ∈ builtinApps, app.priority ≤ 100 := by decide

theorem builtinCategoryPriorities_le :
    ∀ category ∈ builtinCategoryPriorities, category.2 ≤ 100 := by decide

theorem builtinConfig_category_le {ρ : Type} (rest : ρ) {category : String} {prio : Nat}
    (h : (builtinConfig rest).categoryPriorities.lookup category = some prio) : prio ≤ 100 := by
  rcases insertAll_origin h with hEmpty | ⟨entry, hEntry, -, hPrio⟩
  · cases hEmpty
  · exact hPrio ▸ builtinCategoryPriorities_le entry hEntry

/-- Its thresholds pass their own check. -/
theorem builtinConfig_psi {ρ : Type} (rest : ρ) :
    (builtinConfig rest).psi.checked = PsiThresholds.default :=
  if_pos PsiThresholds.default_valid

end Mgd.Config.Builtin
