import ShellPreview.Registry
/-!
# The built-in tables

The package managers and programming tools that are known without any
configuration. Nearly all install patterns have one form: some words with
blanks between them, then options, then the package, which is a word that
does not begin with a hyphen.
-/

namespace ShellPreview.Registry

/-- Any number of options. -/
def optionsPattern : String := "(?:-\\S+\\s+)*"

/-- The package behind a phrase and options. -/
def packageAfter (phrase : String) : String :=
  phrase ++ "\\s+" ++ optionsPattern ++ "([^\\s-]\\S*)"

/-- The built-in table of package managers. -/
def defaultManagers : List Manager :=
  [⟨"pip", "pip", "Python package installer, the standard package manager for Python",
      "https://pypi.org/project/\x7bpackage\x7d/", packageAfter "pip\\s+install"⟩,
    ⟨"uv", "uv", "Ultra-fast Python package installer and resolver",
      "https://pypi.org/project/\x7bpackage\x7d/",
      packageAfter "uv\\s+add" ++ "|" ++ packageAfter "uv\\s+pip\\s+install"⟩,
    ⟨"npm", "npm", "Node Package Manager, the default package manager for Node.js",
      "https://www.npmjs.com/package/\x7bpackage\x7d",
      packageAfter "npm\\s+install" ++ "|" ++ packageAfter "npm\\s+i"⟩,
    ⟨"yarn", "yarn", "Fast, reliable, and secure dependency management for JavaScript",
      "https://www.npmjs.com/package/\x7bpackage\x7d", packageAfter "yarn\\s+add"⟩,
    ⟨"pnpm", "pnpm", "Fast, disk space efficient package manager for Node.js",
      "https://www.npmjs.com/package/\x7bpackage\x7d",
      packageAfter "pnpm\\s+add" ++ "|" ++ packageAfter "pnpm\\s+install"⟩,
    ⟨"choco", "Chocolatey", "Package manager for Windows, automates software installation",
      "https://chocolatey.org/packages/\x7bpackage\x7d", packageAfter "choco\\s+install"⟩,
    ⟨"winget", "winget", "Windows Package Manager, native package manager for Windows 10/11",
      "https://winget.run/pkg/\x7bpackage\x7d",
      "winget\\s+install\\s+(?:--id\\s+)?([^\\s-]+(?:\\.[^\\s-]+)*)"⟩,
    ⟨"scoop", "Scoop", "Command-line installer for Windows, focuses on open-source software",
      "https://scoop.sh/#/apps?q=\x7bpackage\x7d", packageAfter "scoop\\s+install"⟩,
    ⟨"conda", "Conda", "Package manager for Python and other languages, part of Anaconda",
      "https://anaconda.org/search?q=\x7bpackage\x7d", packageAfter "conda\\s+install"⟩,
    ⟨"mamba", "Mamba", "Fast, robust, and cross-platform package manager (conda alternative)",
      "https://anaconda.org/search?q=\x7bpackage\x7d", packageAfter "mamba\\s+install"⟩,
    ⟨"cargo", "Cargo", "Rust package manager and build tool",
      "https://crates.io/crates/\x7bpackage\x7d", packageAfter "cargo\\s+install"⟩,
    ⟨"gem", "RubyGems", "Package manager for Ruby programming language",
      "https://rubygems.org/gems/\x7bpackage\x7d", packageAfter "gem\\s+install"⟩,
    ⟨"go", "Go Modules", "Go programming language module system",
      "https://pkg.go.dev/\x7bpackage\x7d",
      "go\\s+install\\s+" ++ optionsPattern ++ "([^\\s@-][^\\s@]*)"⟩]

/-- The built-in table of programming tools. -/
def defaultTools : List Tool :=
  [⟨"python", "Python", "High-level programming language for general-purpose programming"⟩,
    ⟨"python3", "Python 3", "Python 3.x interpreter for running Python scripts"⟩,
    ⟨"flutter", "Flutter", "Google's UI toolkit for building cross-platform applications"⟩,
    ⟨"dart", "Dart",
      "Programming language optimized for building mobile, desktop, server, and web applications"⟩]

end ShellPreview.Registry
