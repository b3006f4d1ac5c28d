import IngrediGo.Lib.ReadModifyWrite
import IngrediGo.Favorites.Edits
import IngrediGo.Favorites.Sync
import IngrediGo.Favorites.Posts
import IngrediGo.Favorites.Banner
import IngrediGo.Favorites.Timer
import IngrediGo.Favorites.Undo
import IngrediGo.Favorites.Saves
import IngrediGo.Favorites.Unique
import IngrediGo.Recipe.Bookmark
import IngrediGo.Recipe.Icon
import IngrediGo.Data.Number
import IngrediGo.Home.Card
import IngrediGo.Stores.Location
import IngrediGo.Stores.FindInStore
import IngrediGo.Data.Object
import IngrediGo.Recipe.Rollback
import IngrediGo.Recipe.Selection
import IngrediGo.Stores.Hearts
import IngrediGo.Stores.QuietTaps
import IngrediGo.Data.Json
import IngrediGo.Server.Routes
import IngrediGo.Server.Clients
import IngrediGo.Profile.Tags
import IngrediGo.Translator.Photos
import IngrediGo.Lib.Order
import IngrediGo.Lib.Toggles
import IngrediGo.Recipe.Toggles
import IngrediGo.Stores.Ranking
import IngrediGo.Favorites.PriceBar
import IngrediGo.Profile.Removal
import IngrediGo.Home.Search
import IngrediGo.Home.Loads
import IngrediGo.App.Circulation
import IngrediGo.App.Ids
import IngrediGo.App.Return
import IngrediGo.Home.Browse
import IngrediGo.Home.SearchBox
import IngrediGo.Server.Reading
import IngrediGo.Stores.Details
import IngrediGo.Stores.SameShop
import IngrediGo.Server.Traffic
import IngrediGo.App.Hearts
import IngrediGo.Translator.Results
import IngrediGo.Stores.Alone
import IngrediGo.SignIn.Login
import IngrediGo.SignIn.Gate
import IngrediGo.Stores.StaleHearts
import IngrediGo.App.Settling
