import ApiShell.Text.Blank
import ApiShell.Text.Lower

/-!
# Names of pictures

In a marked-up text a name between two colons stands for a picture.
-/

namespace ApiShell.Markup

/-- Pictures and their names. -/
def pictograms : List (String × String) :=
  [("+1", "👍"), ("-1", "👎"), ("100", "💯"), ("1234", "🔢"), ("a", "🅰"), ("ab", "🆎"), ("abc", "🔤"),
   ("airplane", "✈"), ("alarm_clock", "⏰"), ("alien", "👽"), ("anchor", "⚓"), ("angel", "👼"),
   ("angry", "😠"), ("ant", "🐜"), ("apple", "🍎"), ("art", "🎨"), ("b", "🅱"), ("baby", "👶"),
   ("ballot_box_with_check", "☑"), ("banana", "🍌"), ("bangbang", "‼"), ("bar_chart", "📊"),
   ("battery", "🔋"), ("bear", "🐻"), ("bee", "🐝"), ("beer", "🍺"), ("beers", "🍻"), ("bell", "🔔"),
   ("bike", "🚲"), ("bird", "🐦"), ("blue_heart", "💙"), ("blush", "😊"), ("boat", "⛵"), ("bomb", "💣"),
   ("book", "📖"), ("bookmark", "🔖"), ("books", "📚"), ("boom", "💥"), ("boy", "👦"), ("bread", "🍞"),
   ("broken_heart", "💔"), ("bug", "🐛"), ("bulb", "💡"), ("bus", "🚌"), ("cactus", "🌵"), ("cake", "🍰"),
   ("calendar", "📆"), ("camel", "🐫"), ("camera", "📷"), ("candy", "🍬"), ("car", "🚗"), ("cat", "🐱"),
   ("cd", "💿"), ("chart_with_upwards_trend", "📈"), ("cherries", "🍒"), ("chicken", "🐔"), ("cl", "🆑"),
   ("clap", "👏"), ("clipboard", "📋"), ("clock", "🕓"), ("cloud", "☁"), ("clown_face", "🤡"),
   ("coffee", "☕"), ("computer", "💻"), ("construction", "🚧"), ("cookie", "🍪"), ("cool", "🆒"),
   ("corn", "🌽"), ("cow", "🐮"), ("crab", "🦀"), ("crown", "👑"), ("cry", "😢"), ("dancer", "💃"),
   ("dart", "🎯"), ("date", "📅"), ("dizzy", "💫"), ("dog", "🐶"), ("dollar", "💵"), ("dolphin", "🐬"),
   ("door", "🚪"), ("dragon", "🐉"), ("dress", "👗"), ("duck", "🦆"), ("dvd", "📀"), ("eagle", "🦅"),
   ("ear", "👂"), ("egg", "🥚"), ("eggplant", "🍆"), ("elephant", "🐘"), ("email", "✉"), ("end", "🔚"),
   ("envelope", "✉"), ("euro", "💶"), ("exclamation", "❗"), ("eyes", "👀"), ("factory", "🏭"),
   ("family", "👪"), ("feet", "🐾"), ("file_folder", "📁"), ("fire", "🔥"), ("fish", "🐟"),
   ("flags", "🎏"), ("flashlight", "🔦"), ("floppy_disk", "💾"), ("free", "🆓"), ("frog", "🐸"),
   ("game_die", "🎲"), ("gear", "⚙"), ("gem", "💎"), ("ghost", "👻"), ("gift", "🎁"), ("girl", "👧"),
   ("goat", "🐐"), ("grapes", "🍇"), ("green_apple", "🍏"), ("green_heart", "💚"), ("grin", "😁"),
   ("grinning", "😀"), ("guitar", "🎸"), ("gun", "🔫"), ("hammer", "🔨"), ("hamster", "🐹"),
   ("hand", "✋"), ("hankey", "💩"), ("heart", "❤"), ("heart_eyes", "😍"), ("heavy_check_mark", "✔"),
   ("hibiscus", "🌺"), ("horse", "🐴"), ("hospital", "🏥"), ("hotel", "🏨"), ("hourglass", "⌛"),
   ("house", "🏠"), ("ice_cream", "🍨"), ("id", "🆔"), ("imp", "👿"), ("inbox_tray", "📥"),
   ("information_source", "ℹ"), ("jeans", "👖"), ("joy", "😂"), ("key", "🔑"), ("kiss", "💋"),
   ("koala", "🐨"), ("label", "🏷"), ("laughing", "😆"), ("leaves", "🍃"), ("ledger", "📒"),
   ("lemon", "🍋"), ("link", "🔗"), ("lion", "🦁"), ("lock", "🔒"), ("loop", "➿"),
   ("loudspeaker", "📢"), ("m", "Ⓜ"), ("mag", "🔍"), ("mailbox", "📫"), ("man", "👨"), ("mask", "😷"),
   ("mega", "📣"), ("melon", "🍈"), ("memo", "📝"), ("microphone", "🎤"), ("microscope", "🔬"),
   ("monkey", "🐒"), ("moon", "🌔"), ("mouse", "🐭"), ("movie_camera", "🎥"), ("muscle", "💪"),
   ("mushroom", "🍄"), ("musical_note", "🎵"), ("new", "🆕"), ("newspaper", "📰"), ("ng", "🆖"),
   ("no_entry", "⛔"), ("nose", "👃"), ("notes", "🎶"), ("o", "⭕"), ("octopus", "🐙"), ("office", "🏢"),
   ("ok", "🆗"), ("ok_hand", "👌"), ("on", "🔛"), ("ox", "🐂"), ("package", "📦"), ("palm_tree", "🌴"),
   ("panda_face", "🐼"), ("paperclip", "📎"), ("parking", "🅿"), ("peach", "🍑"), ("pear", "🍐"),
   ("pencil", "📝"), ("pencil2", "✏"), ("penguin", "🐧"), ("phone", "☎"), ("pig", "🐷"), ("pill", "💊"),
   ("pineapple", "🍍"), ("pizza", "🍕"), ("point_down", "👇"), ("point_left", "👈"),
   ("point_right", "👉"), ("point_up", "☝"), ("poop", "💩"), ("pouch", "👝"), ("pray", "🙏"),
   ("printer", "🖨"), ("purple_heart", "💜"), ("pushpin", "📌"), ("question", "❓"), ("rabbit", "🐰"),
   ("radio", "📻"), ("rage", "😡"), ("rainbow", "🌈"), ("raised_hands", "🙌"), ("ram", "🐏"),
   ("rat", "🐀"), ("recycle", "♻"), ("red_circle", "🔴"), ("ribbon", "🎀"), ("ring", "💍"),
   ("robot", "🤖"), ("rocket", "🚀"), ("rose", "🌹"), ("sa", "🈂"), ("satellite", "📡"), ("school", "🏫"),
   ("scissors", "✂"), ("scroll", "📜"), ("see_no_evil", "🙈"), ("shark", "🦈"), ("sheep", "🐑"),
   ("ship", "🚢"), ("shirt", "👕"), ("shower", "🚿"), ("skull", "💀"), ("sleeping", "😴"),
   ("smile", "😄"), ("smiley", "😃"), ("smirk", "😏"), ("snail", "🐌"), ("snake", "🐍"),
   ("snowflake", "❄"), ("snowman", "⛄"), ("sob", "😭"), ("soccer", "⚽"), ("soon", "🔜"), ("sos", "🆘"),
   ("sparkles", "✨"), ("speaker", "🔈"), ("spider", "🕷"), ("star", "⭐"), ("star2", "🌟"),
   ("stars", "🌠"), ("stop_sign", "🛑"), ("stopwatch", "⏱"), ("strawberry", "🍓"), ("sunflower", "🌻"),
   ("sunglasses", "😎"), ("sunny", "☀"), ("sunrise", "🌅"), ("sushi", "🍣"), ("tada", "🎉"),
   ("taxi", "🚕"), ("tea", "🍵"), ("telephone", "☎"), ("telescope", "🔭"), ("tent", "⛺"),
   ("thinking", "🤔"), ("thought_balloon", "💭"), ("thumbsdown", "👎"), ("thumbsup", "👍"),
   ("ticket", "🎫"), ("tiger", "🐯"), ("tm", "™"), ("toilet", "🚽"), ("tomato", "🍅"), ("tongue", "👅"),
   ("top", "🔝"), ("tractor", "🚜"), ("train", "🚋"), ("triangular_flag_on_post", "🚩"),
   ("trophy", "🏆"), ("truck", "🚚"), ("trumpet", "🎺"), ("tulip", "🌷"), ("turtle", "🐢"), ("tv", "📺"),
   ("umbrella", "☔"), ("unicorn", "🦄"), ("unlock", "🔓"), ("up", "🆙"), ("v", "✌"),
   ("vampire", "🧛"), ("violin", "🎻"), ("volcano", "🌋"), ("vs", "🆚"), ("warning", "⚠"),
   ("watch", "⌚"), ("watermelon", "🍉"), ("wave", "👋"), ("wc", "🚾"), ("whale", "🐳"),
   ("wheelchair", "♿"), ("white_check_mark", "✅"), ("wink", "😉"), ("wolf", "🐺"), ("woman", "👩"),
   ("wrench", "🔧"), ("x", "❌"), ("yellow_heart", "💛"), ("yen", "💴"), ("yum", "😋"), ("zap", "⚡"),
   ("zero", "0⃣"), ("zzz", "💤")]

/-- The picture of a name.  The name may end with the kind of picture that is wanted. -/
def pictogram? (name : List Char) : Option (List Char) :=
  let find (name : List Char) : Option (List Char) :=
    (pictograms.find? (·.1 == String.ofList (Text.lowerChars name))).map (·.2.toList)
  let kind (mark : String) (selector : Char) : Option (List Char) :=
    let ending := mark.toList
    if ending.isSuffixOf name then
      (find (name.take (name.length - ending.length))).map (· ++ [selector])
    else none
  (kind "-emoji" '\ufe0f').or ((kind "-text" '\ufe0e').or (find name))

/-- Put pictures in the place of their names. -/
def drawPictograms (cs : List Char) : List Char :=
  match cs with
  | [] => []
  | c :: rest =>
    let name := rest.takeWhile fun c => c != ':' && !Text.isBlank c
    if c == ':' && (rest.drop name.length).head? == some ':' then
      (pictogram? name).getD (':' :: name ++ [':']) ++ drawPictograms (rest.drop (name.length + 1))
    else c :: drawPictograms rest
termination_by cs.length
decreasing_by all_goals simp; try omega

end ApiShell.Markup
