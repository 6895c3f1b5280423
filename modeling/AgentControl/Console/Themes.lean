import AgentControl.Theme

/-! # Theme presets

The console's own preset and the themes that the toolkit brings along. Of two with one name the
console's own is meant.
-/

namespace AgentControl.Theme

/-- The preset that the console uses unless told otherwise. -/
def aura : Theme :=
  ⟨"aura", true, "#a277ff", some "#61ffca", some "#ffca85", some "#edecee", some "#15141b",
    some "#1c1b22", some "#29263c", some "#61ffca", some "#ffca85", some "#ff6767"⟩

def textualDark : Theme :=
  ⟨"textual-dark", true, "#0178D4", some "#004578", some "#ffa62b", some "#e0e0e0", none,
    none, none, some "#4EBF71", some "#ffa62b", some "#ba3c5b"⟩

def textualLight : Theme :=
  ⟨"textual-light", false, "#004578", some "#0178D4", some "#ffa62b", none, some "#E0E0E0",
    some "#D8D8D8", some "#D0D0D0", some "#4EBF71", some "#ffa62b", some "#ba3c5b"⟩

def nord : Theme :=
  ⟨"nord", true, "#88C0D0", some "#81A1C1", some "#B48EAD", some "#D8DEE9", some "#2E3440",
    some "#3B4252", some "#434C5E", some "#A3BE8C", some "#EBCB8B", some "#BF616A"⟩

def gruvbox : Theme :=
  ⟨"gruvbox", true, "#85A598", some "#A89A85", some "#fabd2f", some "#fbf1c7", some "#282828",
    some "#3c3836", some "#504945", some "#b8bb26", some "#fe8019", some "#fb4934"⟩

def catppuccinMocha : Theme :=
  ⟨"catppuccin-mocha", true, "#F5C2E7", some "#cba6f7", some "#fab387", some "#cdd6f4",
    some "#181825", some "#313244", some "#45475a", some "#ABE9B3", some "#FAE3B0", some "#F28FAD"⟩

def dracula : Theme :=
  ⟨"dracula", true, "#BD93F9", some "#6272A4", some "#FF79C6", some "#F8F8F2", some "#282A36",
    some "#2B2E3B", some "#313442", some "#50FA7B", some "#FFB86C", some "#FF5555"⟩

def tokyoNight : Theme :=
  ⟨"tokyo-night", true, "#BB9AF7", some "#7AA2F7", some "#FF9E64", some "#a9b1d6", some "#1A1B26",
    some "#24283B", some "#414868", some "#9ECE6A", some "#E0AF68", some "#F7768E"⟩

def monokai : Theme :=
  ⟨"monokai", true, "#AE81FF", some "#F92672", some "#66D9EF", some "#d6d6d6", some "#272822",
    some "#2e2e2e", some "#3E3D32", some "#A6E22E", some "#FD971F", some "#F92672"⟩

def flexoki : Theme :=
  ⟨"flexoki", true, "#205EA6", some "#24837B", some "#9B76C8", some "#FFFCF0", some "#100F0F",
    some "#1C1B1A", some "#282726", some "#66800B", some "#AD8301", some "#AF3029"⟩

def catppuccinLatte : Theme :=
  ⟨"catppuccin-latte", false, "#8839EF", some "#DC8A78", some "#FE640B", some "#4C4F69",
    some "#EFF1F5", some "#E6E9EF", some "#CCD0DA", some "#40A02B", some "#DF8E1D", some "#D20F39"⟩

def catppuccinFrappe : Theme :=
  ⟨"catppuccin-frappe", true, "#CA9EE6", some "#EF9F76", some "#F4B8E4", some "#C6D0F5",
    some "#303446", some "#414559", some "#51576D", some "#A6D189", some "#E5C890", some "#E78284"⟩

def catppuccinMacchiato : Theme :=
  ⟨"catppuccin-macchiato", true, "#C6A0F6", some "#F5A97F", some "#F5BDE6", some "#CAD3F5",
    some "#24273A", some "#363A4F", some "#494D64", some "#A6DA95", some "#EED49F", some "#ED8796"⟩

def solarizedLight : Theme :=
  ⟨"solarized-light", false, "#268bd2", some "#2aa198", some "#6c71c4", some "#586e75",
    some "#fdf6e3", some "#eee8d5", some "#eee8d5", some "#859900", some "#cb4b16", some "#dc322f"⟩

def solarizedDark : Theme :=
  ⟨"solarized-dark", true, "#268bd2", some "#2aa198", some "#6c71c4", some "#839496",
    some "#002b36", some "#073642", some "#073642", some "#859900", some "#cb4b16", some "#dc322f"⟩

def rosePine : Theme :=
  ⟨"rose-pine", true, "#c4a7e7", some "#31748f", some "#ebbcba", some "#e0def4", some "#191724",
    some "#1f1d2e", some "#26233a", some "#9ccfd8", some "#f6c177", some "#eb6f92"⟩

def rosePineMoon : Theme :=
  ⟨"rose-pine-moon", true, "#c4a7e7", some "#3e8fb0", some "#ea9a97", some "#e0def4",
    some "#232136", some "#2a273f", some "#393552", some "#9ccfd8", some "#f6c177", some "#eb6f92"⟩

def rosePineDawn : Theme :=
  ⟨"rose-pine-dawn", false, "#907aa9", some "#286983", some "#d7827e", some "#575279",
    some "#faf4ed", some "#fffaf3", some "#f2e9e1", some "#56949f", some "#ea9d34", some "#b4637a"⟩

def atomOneDark : Theme :=
  ⟨"atom-one-dark", true, "#61AFEF", some "#C678DD", some "#A378C2", some "#ABB2BF", some "#282C34",
    some "#3B414D", some "#4F5666", some "#62F062", some "#DEB25B", some "#F06262"⟩

def atomOneLight : Theme :=
  ⟨"atom-one-light", false, "#4078F2", some "#A626A4", some "#bf9232", some "#383A42",
    some "#FAFAFA", some "#E0E0E0", some "#CCCCCC", some "#6CF23F", some "#D8D938", some "#F23F3F"⟩

def ansiDark : Theme :=
  ⟨"ansi-dark", true, "ansi_blue", some "ansi_cyan", some "ansi_green", some "ansi_default",
    some "ansi_default", some "ansi_default", some "ansi_default", some "ansi_green",
    some "ansi_yellow", some "ansi_red"⟩

def ansiLight : Theme :=
  ⟨"ansi-light", false, "ansi_blue", some "ansi_cyan", some "ansi_magenta", some "ansi_default",
    some "ansi_default", some "ansi_default", some "ansi_default", some "ansi_green",
    some "ansi_bright_red", some "ansi_red"⟩

/-- The console's own presets. -/
def presets : List Theme := [aura]

/-- The themes of the toolkit. -/
def builtIn : List Theme :=
  [textualDark, textualLight, nord, gruvbox, catppuccinMocha, dracula, tokyoNight, monokai,
   flexoki, catppuccinLatte, catppuccinFrappe, catppuccinMacchiato, solarizedLight,
   solarizedDark, rosePine, rosePineMoon, rosePineDawn, atomOneDark, atomOneLight, ansiDark,
   ansiLight]

/-- All names that stand for a theme. -/
def names : List String := (presets ++ builtIn).map (·.name)

def isPreset (name : String) : Bool := presets.any (·.name == name)

/-- The theme of a name. -/
def named? (name : String) : Option Theme := (presets ++ builtIn).find? (·.name == name)

end AgentControl.Theme
